import EbuildAudit.Proofs.Scan.Progress

/-!
The credits of a scan. A unit takes one before it is given out and gives it back when its report is
out, so the credits that are left and those that units have come to the size of the window. That
bounds how many units are under way and how many reports wait for an earlier one.
-/

namespace EbuildAudit.Scan

/-- How many units have a credit: those under way, and the one that is let in next. -/
def State.owed (s : State σ) : Nat :=
  s.inFlight.length + s.dispatcher.credits

def State.allCredits (s : State σ) : Nat :=
  s.credits + s.owed

/-- The next step of a party if the pool has room for the window only, so that a credit that comes
back to a full pool is lost. -/
def State.boundedStep? (s : State σ) (p : Party) : Option (State σ) :=
  (s.step? p).map fun t => { t with credits := min t.credits (max s.options.window 1) }

variable {rules : Rules σ} {options : Options} {store : σ} {units : List ScanUnit}
  {h h' : History} {s t : State σ} {p : Party}

namespace Trace

theorem length_inFlight (ht : Trace (.start rules options store units) h s) :
    s.inFlight.length + s.nextOut = s.nextNumber := by
  simpa using ht.inFlight_perm.length_eq

theorem allCredits_step (ht : Trace (.start rules options store units) h s) (hs : Step h s p h' t) :
    t.allCredits = s.allCredits ∨
      (p = .dispatcher ∧ s.dispatcher = .admitted ∧ s.stopped = true ∧
        t.dispatcher = .finished true ∧ t.allCredits + 1 = s.allCredits) := by
  have hbefore := ht.length_inFlight
  have hafter := (ht.snoc hs).length_inFlight
  simp only [State.allCredits, State.owed]
  cases hs
  case exhaust hd hu | refuse hd hu hb | await hd hu hb | enqueue hd hq =>
    left
    simp only [hd, Dispatcher.credits] at hafter ⊢
    omega
  case acquire hd hc =>
    left
    simp only [hd, Dispatcher.credits] at hafter ⊢
    omega
  case number hd hu hb =>
    left
    simp only [hd, Dispatcher.credits, State.number] at hafter ⊢
    omega
  case cancel hd hu hb =>
    right
    refine ⟨rfl, hd, hb, rfl, ?_⟩
    simp only [hd, Dispatcher.credits] at hafter ⊢
    omega
  case lapse hd hu => exact absurd hu (ht.units_ne_nil (.inr hd))
  case emit hp =>
    left
    simp only [State.emitReport] at hafter ⊢
    omega
  case receive | stop =>
    left
    simp only at hafter ⊢
    omega
  case take | quit | make | put | send =>
    left
    simp only [State.setWorker, State.deposit] at hafter ⊢
    omega

theorem mem_inFlight (ht : Trace (.start rules options store units) h s) :
    s.inFlight.Nodup ∧ ∀ n, n ∈ s.inFlight ↔ s.nextOut ≤ n ∧ n < s.nextNumber := by
  have hperm := ht.inFlight_perm
  obtain ⟨hnodup, -, hdisjoint⟩ := List.nodup_append.1 (hperm.nodup_iff.2 List.nodup_range)
  refine ⟨hnodup, fun n => ?_⟩
  have hmem := hperm.mem_iff (a := n)
  simp only [List.mem_append, List.mem_range] at hmem
  constructor
  · intro hn
    refine ⟨Nat.le_of_not_lt fun hlt => ?_, hmem.1 (.inl hn)⟩
    exact hdisjoint n hn n (List.mem_range.2 hlt) rfl
  · rintro ⟨hle, hlt⟩
    exact (hmem.2 hlt).resolve_right (Nat.not_lt_of_le hle)

theorem allCredits_eq (ht : Trace (.start rules options store units) h s) :
    ∃ lost ≤ 1, (lost = 1 → s.dispatcher = .finished true) ∧
      s.allCredits + lost = max options.window 1 := by
  obtain ⟨lost, hle, hlost, heq⟩ := ht.credits_eq
  have := ht.length_inFlight
  refine ⟨lost, hle, hlost, ?_⟩
  simp only [State.allCredits, State.owed]
  omega

theorem allCredits_le (ht : Trace (.start rules options store units) h s) :
    s.allCredits ≤ max options.window 1 := by
  obtain ⟨lost, -, -, heq⟩ := ht.allCredits_eq
  omega

theorem credits_lt_of_emitted (ht : Trace (.start rules options store units) h s)
    (hs : s.step? .merger = some t) (hout : t.nextOut ≠ s.nextOut) :
    s.credits < max options.window 1 := by
  have hnext := (credits_of_emitted hs hout).1
  have hnumber : t.nextNumber = s.nextNumber := by
    have hstep := Step.of_step? (h := h) hs
    generalize h.after s .merger = h' at hstep
    cases hstep <;> rfl
  have hbefore := ht.length_inFlight
  have hafter := (ht.step hs).length_inFlight
  have hle := ht.allCredits_le
  simp only [State.allCredits, State.owed] at hle
  omega

/-- No credit ever comes back to a full pool. -/
theorem boundedStep?_eq (ht : Trace (.start rules options store units) h s) (p : Party) :
    s.boundedStep? p = s.step? p := by
  rw [State.boundedStep?]
  cases hs : s.step? p with
  | none => rfl
  | some t =>
    have hle := (ht.step hs).allCredits_le
    have hcredits : t.credits ≤ max options.window 1 := Nat.le_trans (Nat.le_add_right _ _) hle
    rw [Option.map_some, ht.options_eq, Nat.min_eq_left hcredits]

theorem length_pending_le (s : State σ) : s.pending.length ≤ s.inFlight.length := by
  simp only [State.inFlight, List.length_append, List.length_map]
  omega

end Trace

/--
As long as the dispatcher is not cut short, the credits that are left and those that units have come
to the window. No step loses or makes one, but that a unit which is turned away at last keeps its
own; so a credit that comes back finds room, and neither the units under way nor the reports at the
merger are ever more than the window.
-/
theorem credits_conserved (ht : Trace (.start rules options store units) h s) :
    (s.dispatcher ≠ .finished true → s.credits + s.owed = max options.window 1) ∧
      (s.credits + s.owed ≤ max options.window 1 ∧
        max options.window 1 ≤ s.credits + s.owed + 1) ∧
      (∀ p t, s.step? p = some t → t.credits + t.owed = s.credits + s.owed ∨
        (p = .dispatcher ∧ s.dispatcher = .admitted ∧ s.stopped = true ∧
          t.dispatcher = .finished true ∧ t.credits + t.owed + 1 = s.credits + s.owed)) ∧
      (∀ t, s.step? .merger = some t → t.nextOut ≠ s.nextOut →
        s.credits < max options.window 1 ∧ t.credits = s.credits + 1) ∧
      (∀ p, s.boundedStep? p = s.step? p) ∧
      (s.inFlight.Nodup ∧ ∀ n, n ∈ s.inFlight ↔ s.nextOut ≤ n ∧ n < s.nextNumber) ∧
      s.inFlight.length ≤ max options.window 1 ∧ s.pending.length ≤ max options.window 1 := by
  obtain ⟨lost, hle, hlost, heq⟩ := ht.allCredits_eq
  have hflight : s.inFlight.length ≤ max options.window 1 := by
    have := ht.allCredits_le
    simp only [State.allCredits, State.owed] at this
    omega
  refine ⟨fun hd => ?_, ?_, fun p t hs => ht.allCredits_step (.of_step? hs), fun t hs hout => ?_,
    ht.boundedStep?_eq, ht.mem_inFlight, hflight, Nat.le_trans (Trace.length_pending_le s) hflight⟩
  · have hzero := mt hlost hd
    rw [← heq, State.allCredits]
    omega
  · rw [← heq, State.allCredits]
    omega
  · exact ⟨ht.credits_lt_of_emitted hs hout, (Trace.credits_of_emitted hs hout).2⟩

def turnedAway : State Store :=
  { State.start (Scan.rules tallyPlan unread) ⟨2, 1, 2, none⟩ bareStore loneVersion with
    credits := 1
    stopped := true
    dispatcher := .finished true }

theorem turnedAway_trace :
    Trace (.start (Scan.rules tallyPlan unread) ⟨2, 1, 2, none⟩ bareStore loneVersion)
      ⟨[], [], []⟩ turnedAway :=
  Trace.start.of_play [.dispatcher, .dispatcher, .stopper, .dispatcher] rfl

theorem credits_conserved_blocked :
    blocked.credits = 0 ∧ blocked.owed = 2 ∧ blocked.credits + blocked.owed = max 2 1 ∧
      turnedAway.credits + turnedAway.owed = 1 ∧
      max 2 1 ≤ turnedAway.credits + turnedAway.owed + 1 :=
  ⟨rfl, rfl, (credits_conserved blocked_trace).1 (by decide), rfl,
    (credits_conserved turnedAway_trace).2.1.2⟩

end EbuildAudit.Scan
