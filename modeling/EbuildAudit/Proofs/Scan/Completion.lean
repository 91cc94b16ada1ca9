import EbuildAudit.Proofs.Scan.Progress

namespace EbuildAudit.Scan

def Dispatcher.remaining (units : Nat) : Dispatcher → Nat
  | .looking => 10 * units + 3
  | .waiting => 10 * units + 2
  | .admitted => 10 * units + 1
  | .sending _ => 10 * units + 10
  | .finished _ => 0

def Worker.remaining : Worker → Nat
  | .idle => 1
  | .holding _ => 6
  | .depositing .. => 5
  | .sending .. => 4
  | .finished => 0

def State.remaining (s : State σ) : Nat :=
  s.dispatcher.remaining s.units.length + 6 * s.queue.length +
    s.workers.foldr (fun w steps => w.remaining + steps) 0 + 2 * s.results.length + s.pending.length

variable {rules : Rules σ} {options : Options} {store : σ} {units : List ScanUnit}
  {h h' : History} {s t : State σ} {p : Party} {fuel : Nat}

theorem foldr_set {α : Type} {l : List α} {i : Nat} {a : α} (f : α → Nat) (hl : l[i]? = some a)
    (b : α) : (l.set i b).foldr (fun c n => f c + n) 0 + f a =
      l.foldr (fun c n => f c + n) 0 + f b := by
  induction l generalizing i with
  | nil => simp at hl
  | cons c l ih =>
    cases i with
    | zero =>
      obtain rfl : c = a := by simpa using hl
      simp only [List.set_cons_zero, List.foldr_cons]
      omega
    | succ i =>
      have := ih (i := i) (by simpa using hl)
      simp only [List.set_cons_succ, List.foldr_cons]
      omega

theorem foldr_replicate {α : Type} (f : α → Nat) (n : Nat) (a : α) :
    (List.replicate n a).foldr (fun c m => f c + m) 0 = n * f a := by
  induction n with
  | zero => rw [List.replicate_zero, List.foldr_nil, Nat.zero_mul]
  | succ n ih => rw [List.replicate_succ, List.foldr_cons, ih, Nat.succ_mul, Nat.add_comm]

theorem Step.remaining_lt (hs : Step h s p h' t) (hp : p ≠ .stopper) :
    t.remaining < s.remaining := by
  cases hs
  case exhaust hd hu | refuse hd hu hb | await hd hu hb | cancel hd hu hb | lapse hd hu =>
    simp only [State.remaining, hd, hu, Dispatcher.remaining, List.length_nil, List.length_cons]
    omega
  case acquire hd hc =>
    simp only [State.remaining, hd, Dispatcher.remaining]
    omega
  case number hd hu hb =>
    simp only [State.remaining, State.number, hd, hu, Dispatcher.remaining, List.length_cons]
    omega
  case enqueue hd hq =>
    simp only [State.remaining, hd, Dispatcher.remaining, List.length_append, List.length_singleton]
    omega
  case take i work queue hw hq =>
    have := foldr_set Worker.remaining hw (.holding work)
    simp only [State.remaining, State.setWorker, hq, List.length_cons, Worker.remaining] at this ⊢
    omega
  case quit i hw hq hd =>
    have := foldr_set Worker.remaining hw .finished
    simp only [State.remaining, State.setWorker, Worker.remaining] at this ⊢
    omega
  case make i work taken hw hc =>
    have := foldr_set Worker.remaining hw (.depositing work (s.reportOf work taken).1)
    simp only [State.remaining, State.setWorker, Worker.remaining] at this ⊢
    omega
  case put i work report hw =>
    have := foldr_set Worker.remaining hw (.sending work.number report)
    simp only [State.remaining, State.setWorker, State.deposit, Worker.remaining] at this ⊢
    omega
  case send i number report hw =>
    have := foldr_set Worker.remaining hw .idle
    simp only [State.remaining, State.setWorker, Worker.remaining, List.length_append,
      List.length_singleton] at this ⊢
    omega
  case emit report hlookup =>
    have : (s.pending.filter (·.1 != s.nextOut)).length < s.pending.length := by
      rw [List.length_filter_lt_length_iff_exists]
      exact ⟨_, mem_of_lookup hlookup, by simp⟩
    simp only [State.remaining, State.emitReport]
    omega
  case receive result results hp' hr =>
    simp only [State.remaining, hr, List.length_cons]
    omega
  case stop => exact absurd rfl hp

theorem start_remaining_le (rules : Rules σ) (options : Options) (store : σ)
    (units : List ScanUnit) : (State.start rules options store units).remaining ≤
      10 * units.length + 2 * (State.start rules options store units).workers.length + 4 := by
  have hworkers := foldr_replicate Worker.remaining (max options.workers 1) .idle
  simp only [State.remaining, State.start, hworkers, List.length_replicate, List.length_nil]
  simp only [Dispatcher.remaining, Worker.remaining]
  omega

theorem step_eq_none_of_parties (hs : s.parties.findSome? s.step? = none) (hp : p ≠ .stopper) :
    s.step? p = none := by
  rw [List.findSome?_eq_none_iff] at hs
  cases p with
  | merger => exact hs .merger (by simp [State.parties])
  | dispatcher => exact hs .dispatcher (by simp [State.parties])
  | stopper => exact absurd rfl hp
  | worker i =>
    cases hw : s.workers[i]? with
    | none => simp [State.step?, State.stepWorker, hw]
    | some w =>
      have hi : i < s.workers.length := (List.getElem?_eq_some_iff.1 hw).1
      apply hs
      simp only [State.parties, List.partition_eq_filter_filter, List.mem_cons, List.mem_map,
        List.mem_append, List.mem_reverse, List.mem_filter, List.mem_range]
      cases hidle : s.workers[i]? == some .idle with
      | true => exact .inr (.inr ⟨i, .inl ⟨hi, hidle⟩, rfl⟩)
      | false => exact .inr (.inr ⟨i, .inr ⟨hi, by simp [hidle]⟩, rfl⟩)

theorem ne_stopper_of_mem_parties (h : p ∈ s.parties) : p ≠ .stopper := by
  rintro rfl
  simp [State.parties] at h

theorem runWithin_stuck (hfuel : s.remaining ≤ fuel) : (State.runWithin fuel s).Stuck := by
  intro p hp
  induction fuel generalizing s with
  | zero =>
    cases hstep : s.step? p with
    | none => rw [State.runWithin, hstep]
    | some t =>
      have := (Step.of_step? (h := .empty) hstep).remaining_lt hp
      omega
  | succ fuel ih =>
    simp only [State.runWithin]
    cases hs : s.parties.findSome? s.step? with
    | none => exact step_eq_none_of_parties hs hp
    | some t =>
      obtain ⟨q, hq, hstep⟩ := List.exists_of_findSome?_eq_some hs
      have := (Step.of_step? (h := .empty) hstep).remaining_lt (ne_stopper_of_mem_parties hq)
      exact ih (by omega)

theorem Step.stopped_eq (hs : Step h s p h' t) (hp : p ≠ .stopper)
    (hlimit : s.options.limit = none) : t.options = s.options ∧ t.stopped = s.stopped := by
  cases hs
  case emit report hlookup =>
    refine ⟨rfl, ?_⟩
    simp [State.emitReport, State.reachedLimit, hlimit]
  case stop => exact absurd rfl hp
  all_goals exact ⟨rfl, rfl⟩

theorem runWithin_stopped (hlimit : s.options.limit = none) (fuel : Nat) :
    (s.runWithin fuel).stopped = s.stopped := by
  induction fuel generalizing s with
  | zero => rfl
  | succ fuel ih =>
    simp only [State.runWithin]
    cases hs : s.parties.findSome? s.step? with
    | none => rfl
    | some t =>
      obtain ⟨q, hq, hstep⟩ := List.exists_of_findSome?_eq_some hs
      obtain ⟨hoptions, hstopped⟩ := (Step.of_step? (h := .empty) hstep).stopped_eq
        (ne_stopper_of_mem_parties hq) hlimit
      simp only
      rw [ih (hoptions ▸ hlimit), hstopped]

theorem Trace.runWithin (ht : Trace (.start rules options store units) h s) (fuel : Nat) :
    ∃ h', Trace (.start rules options store units) h' (s.runWithin fuel) := by
  induction fuel generalizing h s with
  | zero => exact ⟨h, ht⟩
  | succ fuel ih =>
    simp only [State.runWithin]
    cases hs : s.parties.findSome? s.step? with
    | none => exact ⟨h, ht⟩
    | some t =>
      obtain ⟨q, -, hstep⟩ := List.exists_of_findSome?_eq_some hs
      exact ih (ht.step hstep)

theorem Trace.run (rules : Rules σ) (options : Options) (store : σ) (units : List ScanUnit) :
    ∃ h, Trace (.start rules options store units) h (State.start rules options store units).run :=
  Trace.start.runWithin _

theorem run_isFinished (hrules : rules.Aggregating) (options : Options) (store : σ)
    (hunits : PackagesOnce units) :
    (State.start rules options store units).run.isFinished = true := by
  obtain ⟨h, ht⟩ := Trace.run rules options store units
  apply ht.isFinished_of_stuck hrules (ht.unrobbed_of_once hrules hunits)
  exact runWithin_stuck (start_remaining_le rules options store units)

end EbuildAudit.Scan
