import EbuildAudit.Proofs.Scan.Deposit
import EbuildAudit.Proofs.Scan.Tally

namespace EbuildAudit.Scan

variable {rules : Rules σ} {options : Options} {store : σ} {units : List ScanUnit}
  {h : History} {s t : State σ} {work : Work} {m : Made} {d : Deposit} {i : Nat}

def State.inFlight (s : State σ) : List Nat :=
  s.pending.map (·.1) ++ s.results.map (·.1) ++ (s.workers.filterMap Worker.report?).map (·.1) ++
    (s.workers.filterMap Worker.held?).map Work.number ++ s.queue.map Work.number ++
    s.dispatcher.work?.toList.map Work.number

theorem merger_waits (hs : s.step? .merger = none) :
    s.pending.lookup s.nextOut = none ∧ s.results = [] := by
  simp only [State.step?, State.stepMerger] at hs
  split at hs
  · cases hs
  case h_2 hp =>
    split at hs
    · cases hs
    case h_2 hr => exact ⟨hp, hr⟩

theorem dispatcher_waits (hs : s.step? .dispatcher = none) :
    s.dispatcher.isFinished = true ∨ (s.dispatcher = .waiting ∧ s.credits = 0) ∨
      ∃ work, s.dispatcher = .sending work ∧ s.queue ≠ [] := by
  simp only [State.step?, State.stepDispatcher] at hs
  split at hs
  case h_3 hd =>
    split at hs
    case isTrue hc => exact .inr (.inl ⟨hd, hc⟩)
    case isFalse => cases hs
  case h_6 work hd =>
    split at hs
    case isTrue => cases hs
    case isFalse hq =>
      refine .inr (.inr ⟨work, hd, fun hempty => hq ?_⟩)
      rw [hempty, List.length_nil]
      omega
  case h_7 hd => exact .inl (by rw [hd, Dispatcher.isFinished])
  all_goals cases hs

theorem worker_waits (hs : s.step? (.worker i) = none) (hw : s.workers[i]? = some w) :
    w = .finished ∨ (w = .idle ∧ s.queue = [] ∧ s.dispatcher.isFinished = false) ∨
      ∃ work, w = .holding work ∧ s.collect? work = none := by
  simp only [State.step?, State.stepWorker, hw] at hs
  cases w with
  | idle =>
    cases hq : s.queue with
    | nil =>
      simp only [hq] at hs
      split at hs
      · cases hs
      case isFalse hd => exact .inr (.inl ⟨rfl, rfl, by simpa using hd⟩)
    | cons work queue => simp [hq] at hs
  | holding work => exact .inr (.inr ⟨work, rfl, by simpa [State.process] using hs⟩)
  | depositing work report => cases hs
  | sending number report => cases hs
  | finished => exact .inl rfl

theorem holding_steps (hw : s.workers[i]? = some (.holding work))
    (hc : s.rules.collects work.unit = false) : (s.step? (.worker i)).isSome = true := by
  simp [State.step?, State.stepWorker, hw, State.process, State.collect?, hc]

theorem step_eq_none_of_collect (hw : s.workers[i]? = some (.holding work))
    (hc : s.collect? work = none) : s.step? (.worker i) = none := by
  simp [State.step?, State.stepWorker, hw, State.process, hc]

theorem depositing_steps (hw : s.workers[i]? = some (.depositing work report)) :
    (s.step? (.worker i)).isSome = true := by
  simp [State.step?, State.stepWorker, hw]

/-- Only the stop signal is left to be raised. -/
def State.Stuck (s : State σ) : Prop :=
  ∀ p, p ≠ .stopper → s.step? p = none

theorem mem_inFlight_of_waits (hp : s.pending.lookup s.nextOut = none) (hr : s.results = [])
    (h : s.nextOut ∈ s.inFlight) :
    (∃ w ∈ s.workers, ∃ report, w.report? = some (s.nextOut, report)) ∨
      (∃ w ∈ s.workers, ∃ work, w.held? = some work ∧ work.number = s.nextOut) ∨
        (∃ work ∈ s.queue, work.number = s.nextOut) ∨
          ∃ work, s.dispatcher.work? = some work ∧ work.number = s.nextOut := by
  simp only [State.inFlight, hr, List.map_nil, List.append_nil, List.mem_append] at h
  rcases h with (((h | h) | h) | h) | h
  · exact absurd h (not_mem_of_lookup hp)
  · obtain ⟨⟨number, report⟩, hmem, rfl⟩ := List.mem_map.1 h
    obtain ⟨w, hw, hreport⟩ := List.mem_filterMap.1 hmem
    exact .inl ⟨w, hw, report, hreport⟩
  · obtain ⟨work, hmem, hnumber⟩ := List.mem_map.1 h
    obtain ⟨w, hw, hheld⟩ := List.mem_filterMap.1 hmem
    exact .inr (.inl ⟨w, hw, work, hheld, hnumber⟩)
  · exact .inr (.inr (.inl (List.mem_map.1 h)))
  · obtain ⟨work, hmem, hnumber⟩ := List.mem_map.1 h
    exact .inr (.inr (.inr ⟨work, Option.mem_toList.1 hmem, hnumber⟩))

def Unrobbed (units : List ScanUnit) (h : History) (s : State σ) : Prop :=
  ∀ (i : Nat) work, s.workers[i]? = some (.holding work) →
    ∀ m ∈ h.made, ∀ d ∈ m.taken, d.number ∉ since units work.unit.id work.number

def AtHand (s : State σ) (id : UnitId) (i v : Nat) : Prop :=
  (∃ d ∈ s.deposits, d.owner = id ∧ d.number = v) ∨
    ∃ (j : Nat) (other : Worker) (version : Work), j ≠ i ∧ s.workers[j]? = some other ∧
      (other = .holding version ∨ ∃ report, other = .depositing version report) ∧
      version.number = v ∧ (s.step? (.worker j)).isSome = true

def PackagesOnce (units : List ScanUnit) : Prop :=
  units.Pairwise fun a b => a.scope = .package → a.id ≠ b.id

namespace PackagesOnce

theorem eq_of_id_eq (h : PackagesOnce units) {m n : Nat} {a b : ScanUnit}
    (ha : units[m]? = some a) (hb : units[n]? = some b) (hscope : a.scope = .package)
    (hid : a.id = b.id) : m = n := by
  obtain ⟨hm, rfl⟩ := List.getElem?_eq_some_iff.1 ha
  obtain ⟨hn, rfl⟩ := List.getElem?_eq_some_iff.1 hb
  rcases Nat.lt_trichotomy m n with hlt | heq | hgt
  · exact absurd hid (List.pairwise_iff_getElem.1 h m n hm hn hlt hscope)
  · exact heq
  · have hscope' := (ScanUnit.scope_congr hid).symm.trans hscope
    exact absurd hid.symm (List.pairwise_iff_getElem.1 h n m hn hm hgt hscope')

end PackagesOnce

namespace Trace

theorem inFlight_perm (ht : Trace (.start rules options store units) h s) :
    (s.inFlight ++ List.range s.nextOut).Perm (List.range s.nextNumber) := by
  have hreports := ht.reports_perm.map (·.1)
  have hheld := ht.held_perm.map Work.number
  have hhanded := congrArg (List.map Work.number) ht.handed_append
  rw [map_number_works_take units ht.nextNumber_le] at hhanded
  simp only [List.map_append, ht.map_fst_emitted, List.map_map, Function.comp_def,
    Made.numbered] at hreports hheld hhanded
  rw [List.perm_iff_count] at hreports hheld ⊢
  intro n
  specialize hreports n
  specialize hheld n
  rw [← hhanded]
  simp only [State.inFlight, List.count_append] at hreports hheld ⊢
  omega

theorem nextOut_le (ht : Trace (.start rules options store units) h s) :
    s.nextOut ≤ s.nextNumber := by
  have := ht.inFlight_perm.length_eq
  simp only [List.length_append, List.length_range] at this
  omega

theorem nextOut_mem_inFlight (ht : Trace (.start rules options store units) h s)
    (hlt : s.nextOut < s.nextNumber) : s.nextOut ∈ s.inFlight := by
  have hmem := ht.inFlight_perm.mem_iff.2 (List.mem_range.2 hlt)
  rcases List.mem_append.1 hmem with hmem | hmem
  · exact hmem
  · exact absurd (List.mem_range.1 hmem) (Nat.lt_irrefl _)

theorem inFlight_of_waiting (ht : Trace (.start rules options store units) h s)
    (hd : s.dispatcher = .waiting) (hc : s.credits = 0) : s.nextOut ∈ s.inFlight := by
  obtain ⟨lost, hle, hlost, heq⟩ := ht.credits_eq
  rw [hd] at heq hlost
  have : lost ≠ 1 := fun h => Dispatcher.noConfusion (hlost h)
  simp only [Dispatcher.credits] at heq
  exact ht.nextOut_mem_inFlight (by omega)

theorem of_worker_finished (ht : Trace (.start rules options store units) h s) :
    Worker.finished ∈ s.workers → s.dispatcher.isFinished = true ∧ s.queue = [] := by
  refine ht.invariant (I := fun _ s => Worker.finished ∈ s.workers →
    s.dispatcher.isFinished = true ∧ s.queue = []) (by simp [State.start])
    fun {h s p h' t} ht hI hs => ?_
  cases hs
  case quit i hw hq hd => exact fun _ => ⟨hd, hq⟩
  case take i work queue hw hq =>
    intro hmem
    rcases List.mem_or_eq_of_mem_set hmem with hmem | hmem
    · simp [(hI hmem).2] at hq
    · cases hmem
  case make i work taken hw hc | put i work report hw | send i number report hw =>
    intro hmem
    rcases List.mem_or_eq_of_mem_set hmem with hmem | hmem
    · exact hI hmem
    · cases hmem
  case emit | receive | stop => exact hI
  all_goals
    intro hmem
    simp_all [State.number, Dispatcher.isFinished]

theorem counted_whereabouts (ht : Trace (.start rules options store units) h s)
    (hrules : rules.Aggregating) (hrobbed : Unrobbed units h s)
    (hw : s.workers[i]? = some (.holding work)) (hcollects : rules.collects work.unit = true)
    (hv : v ∈ since units work.unit.id work.number) : AtHand s work.unit.id i v := by
  have hnumber := ht.number_lt (ht.handed_of_held hw)
  have hunits := ht.number_lt_units (ht.handed_of_held hw)
  obtain ⟨hlt, ⟨unit, hu, hbelow⟩, -⟩ := (mem_since (Nat.le_of_lt hunits)).1 hv
  obtain ⟨hscope, -⟩ := ScanUnit.liesBelow_iff.1 hbelow
  have hdeposits := hrules.deposits_of_collects hcollects hscope
  have hne : (workOf units v unit).number ≠ work.number := Nat.ne_of_lt hlt
  rcases ht.version_whereabouts hdeposits hu hbelow (Nat.lt_trans hlt hnumber) with
    ⟨j, hj⟩ | ⟨j, report, hj⟩ | ⟨d, hd, howner, hd' | ⟨m, hm, hd'⟩⟩
  · refine .inr ⟨j, _, _, ?_, hj, .inl rfl, rfl, holding_steps hj ?_⟩
    · rintro rfl
      rw [hw] at hj
      cases hj
      exact hne rfl
    · rw [ht.rules_eq, Bool.eq_false_iff]
      intro hcollects'
      have := hrules.collects_package hcollects'
      simp_all [workOf]
  · refine .inr ⟨j, _, _, ?_, hj, .inr ⟨_, rfl⟩, rfl, depositing_steps hj⟩
    rintro rfl
    rw [hw] at hj
    cases hj
  · exact .inl ⟨d, hd', howner, hd⟩
  · exact absurd (hd ▸ hv) (hrobbed i work hw m hm d hd')

theorem children_of_blocked (ht : Trace (.start rules options store units) h s)
    (hrules : rules.Aggregating) (hw : s.workers[i]? = some (.holding work))
    (hcollects : rules.collects work.unit = true) :
    work.children = (since units work.unit.id work.number).length := by
  obtain ⟨-, hwork⟩ := ht.mem_handed (ht.handed_of_held hw)
  rw [hwork, workOf, if_pos (hrules.collects_package hcollects)]

theorem not_holding_of_stuck (ht : Trace (.start rules options store units) h s)
    (hrules : rules.Aggregating) (hrobbed : Unrobbed units h s) (hstuck : s.Stuck) :
    s.workers[i]? ≠ some (.holding work) := by
  intro hw
  rcases worker_waits (hstuck (.worker i) (by simp)) hw with hw' | ⟨hw', -, -⟩ | ⟨_, hw', hc⟩
  · cases hw'
  · cases hw'
  cases hw'
  obtain ⟨hcollects, hlt⟩ := collect_eq_none_iff.1 hc
  rw [ht.rules_eq] at hcollects
  rw [ht.children_of_blocked hrules hw hcollects] at hlt
  refine Nat.not_le_of_lt hlt (length_since_le_depositsFor fun v hv => ?_)
  rcases ht.counted_whereabouts hrules hrobbed hw hcollects hv with
    hput | ⟨j, _, _, -, -, -, -, hstep⟩
  · exact hput
  · rw [hstuck (.worker j) (by simp)] at hstep
    cases hstep

/-- If nobody can take a step then the workers have finished or wait for units that do not come. -/
theorem workers_of_stuck (ht : Trace (.start rules options store units) h s)
    (hrules : rules.Aggregating) (hrobbed : Unrobbed units h s) (hstuck : s.Stuck) :
    ∀ w ∈ s.workers, w = .finished ∨
      (w = .idle ∧ s.queue = [] ∧ s.dispatcher.isFinished = false) := by
  intro w hw
  obtain ⟨i, hi⟩ := List.getElem?_of_mem hw
  rcases worker_waits (hstuck (.worker i) (by simp)) hi with hw' | hw' | ⟨work, rfl, -⟩
  · exact .inl hw'
  · exact .inr hw'
  · exact absurd hi (ht.not_holding_of_stuck hrules hrobbed hstuck)

theorem exists_worker (ht : Trace (.start rules options store units) h s) : ∃ w, w ∈ s.workers := by
  have := ht.length_workers
  exact List.exists_mem_of_length_pos (by omega)

theorem isFinished_of_stuck (ht : Trace (.start rules options store units) h s)
    (hrules : rules.Aggregating) (hrobbed : Unrobbed units h s) (hstuck : s.Stuck) :
    s.isFinished = true := by
  obtain ⟨hpending, hresults⟩ := merger_waits (hstuck .merger (by simp))
  have hworkers := ht.workers_of_stuck hrules hrobbed hstuck
  rcases dispatcher_waits (hstuck .dispatcher (by simp)) with hd | ⟨hd, hc⟩ | ⟨work, hd, hq⟩
  · have hall : s.workers.all Worker.isFinished = true := by
      rw [List.all_eq_true]
      intro w hw
      rcases hworkers w hw with rfl | ⟨-, -, hd'⟩
      · rfl
      · rw [hd] at hd'
        cases hd'
    simp [State.isFinished, hd, hall, hresults, hpending]
  · -- the next report would have to be on its way, but nobody has it
    exfalso
    have hidle : ∀ w ∈ s.workers, w = .idle ∧ s.queue = [] := by
      intro w hw
      rcases hworkers w hw with rfl | ⟨hw', hq, -⟩
      · have hd' := (ht.of_worker_finished hw).1
        rw [hd] at hd'
        cases hd'
      · exact ⟨hw', hq⟩
    rcases mem_inFlight_of_waits hpending hresults (ht.inFlight_of_waiting hd hc) with
      ⟨w, hw, report, hreport⟩ | ⟨w, hw, work, hheld, -⟩ | ⟨work, hmem, -⟩ | ⟨work, hwork, -⟩
    · rw [(hidle w hw).1] at hreport
      cases hreport
    · rw [(hidle w hw).1] at hheld
      cases hheld
    · obtain ⟨w, hw⟩ := ht.exists_worker
      rw [(hidle w hw).2] at hmem
      cases hmem
    · rw [hd] at hwork
      cases hwork
  · exfalso
    obtain ⟨w, hw⟩ := ht.exists_worker
    rcases hworkers w hw with rfl | ⟨-, hq', -⟩
    · exact hq (ht.of_worker_finished hw).2
    · exact hq hq'

theorem exists_step (ht : Trace (.start rules options store units) h s)
    (hrules : rules.Aggregating) (hrobbed : Unrobbed units h s) (hs : s.isFinished = false) :
    ∃ p, p ≠ .stopper ∧ (s.step? p).isSome = true := by
  refine Classical.byContradiction fun hnone => ?_
  have hstuck : s.Stuck := by
    intro p hp
    rw [← Option.not_isSome_iff_eq_none]
    exact fun hsome => hnone ⟨p, hp, hsome⟩
  rw [ht.isFinished_of_stuck hrules hrobbed hstuck] at hs
  cases hs

theorem unrobbed_of_once (ht : Trace (.start rules options store units) h s)
    (hrules : rules.Aggregating) (hunits : PackagesOnce units) : Unrobbed units h s := by
  intro i work hw m hm d hd hv
  have hhanded := ht.handed_of_held hw
  obtain ⟨hcollects, howner⟩ := ht.taken_owner m hm d hd
  obtain ⟨-, version, hversion, hbelow⟩ := ht.deposit_below hrules (.inr ⟨m, hm, hd⟩)
  obtain ⟨-, ⟨version', hversion', hbelow'⟩, -⟩ :=
    (mem_since (Nat.le_of_lt (ht.number_lt_units hhanded))).1 hv
  rw [hversion] at hversion'
  cases hversion'
  have hid : m.work.unit.id = work.unit.id := by
    rw [← howner]
    exact ScanUnit.liesBelow_unique hbelow hbelow'
  have hu := ht.unit_of_made hm
  obtain ⟨hu', -⟩ := ht.mem_handed hhanded
  exact ht.held_ne_made hw hm
    (hunits.eq_of_id_eq hu hu' (hrules.collects_package hcollects) hid)

theorem credits_of_emitted (hs : s.step? .merger = some t) (hout : t.nextOut ≠ s.nextOut) :
    t.nextOut = s.nextOut + 1 ∧ t.credits = s.credits + 1 := by
  have hstep := Step.of_step? (h := .empty) hs
  generalize History.after _ s .merger = h' at hstep
  cases hstep with
  | emit => exact ⟨rfl, rfl⟩
  | receive => exact absurd rfl hout

end Trace

/-- Where each package is given out once, nobody waits forever. Some party can always take a step; a
package waits only for versions that others have in their hands or have put aside, and the
dispatcher waits only as long as a unit is under way that gives its credit back. -/
theorem no_deadlock {store : Store} {s : State Store} (plan : Plan) (grammar : Grammar)
    (hunits : PackagesOnce units)
    (ht : Trace (.start (Scan.rules plan grammar) options store units) h s) :
    (s.isFinished = false → ∃ p, p ≠ .stopper ∧ (s.step? p).isSome = true) ∧
      (∀ (i : Nat) work, s.workers[i]? = some (.holding work) → s.step? (.worker i) = none →
        work.children = (since units work.unit.id work.number).length ∧
          ∀ v ∈ since units work.unit.id work.number, AtHand s work.unit.id i v) ∧
      (s.dispatcher = .waiting → s.step? .dispatcher = none → s.nextOut ∈ s.inFlight) ∧
      ∀ t, s.step? .merger = some t → t.nextOut ≠ s.nextOut →
        t.nextOut = s.nextOut + 1 ∧ t.credits = s.credits + 1 := by
  have hrules := rules_aggregating plan grammar
  have hrobbed := ht.unrobbed_of_once hrules hunits
  refine ⟨ht.exists_step hrules hrobbed, ?_, ?_, fun t => Trace.credits_of_emitted⟩
  · intro i work hw hs
    rcases worker_waits hs hw with hw' | ⟨hw', -, -⟩ | ⟨_, hw', hc⟩
    · cases hw'
    · cases hw'
    cases hw'
    have hcollects := (collect_eq_none_iff.1 hc).1
    rw [ht.rules_eq] at hcollects
    exact ⟨ht.children_of_blocked hrules hw hcollects,
      fun v hv => ht.counted_whereabouts hrules hrobbed hw hcollects hv⟩
  · intro hd hs
    rcases dispatcher_waits hs with hd' | ⟨-, hc⟩ | ⟨work, hd', -⟩
    · rw [hd] at hd'
      cases hd'
    · exact ht.inFlight_of_waiting hd hc
    · rw [hd] at hd'
      cases hd'

def loneVersion : List ScanUnit :=
  [⟨.version "a" "p" "1", "a/p/p-1.ebuild", 0⟩, ⟨.package "a" "p", "a/p", 1⟩]

def blocked : State Store :=
  { State.start (Scan.rules tallyPlan unread) ⟨2, 1, 2, none⟩ bareStore loneVersion with
    units := []
    nextNumber := 2
    credits := 0
    workers := [.holding ⟨0, loneVersion[0], 0⟩, .holding ⟨1, loneVersion[1], 1⟩] }

theorem blocked_trace :
    Trace (.start (Scan.rules tallyPlan unread) ⟨2, 1, 2, none⟩ bareStore loneVersion)
      ⟨[⟨0, loneVersion[0], 0⟩, ⟨1, loneVersion[1], 1⟩], [], []⟩ blocked :=
  Trace.start.of_play [.dispatcher, .dispatcher, .dispatcher, .dispatcher, .worker 0,
    .dispatcher, .dispatcher, .dispatcher, .dispatcher, .worker 1] rfl

theorem no_deadlock_blocked :
    blocked.isFinished = false ∧ blocked.step? (.worker 1) = none ∧
      (∃ p, p ≠ .stopper ∧ (blocked.step? p).isSome = true) ∧
      AtHand blocked (.package "a" "p") 1 0 := by
  have hstep : blocked.step? (.worker 1) = none := by
    apply step_eq_none_of_collect rfl
    rw [collect_eq_none_iff, length_depositsFor]
    exact ⟨rfl, Nat.zero_lt_one⟩
  obtain ⟨henabled, hwait, -⟩ :=
    no_deadlock tallyPlan unread (by unfold PackagesOnce; decide) blocked_trace
  obtain ⟨-, hversions⟩ := hwait 1 _ rfl hstep
  exact ⟨rfl, hstep, henabled rfl, hversions 0 (by decide)⟩

end EbuildAudit.Scan
