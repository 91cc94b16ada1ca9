import EbuildAudit.Proofs.Basic
import EbuildAudit.Proofs.Scan.Numbering

namespace EbuildAudit.Scan

namespace Dispatcher

def work? : Dispatcher → Option Work
  | .sending work => some work
  | _ => none

def credits : Dispatcher → Nat
  | .admitted => 1
  | _ => 0

end Dispatcher

namespace Worker

def held? : Worker → Option Work
  | .holding work => some work
  | _ => none

def report? : Worker → Option (Nat × UnitReport)
  | .depositing work report => some (work.number, report)
  | .sending number report => some (number, report)
  | _ => none

def deposit? (rules : Rules σ) : Worker → Option Deposit
  | .depositing work report => State.deposit? rules work report
  | _ => none

end Worker

def Made.deposit? (rules : Rules σ) (m : Made) : Option Deposit :=
  State.deposit? rules m.work m.report

theorem count_filterMap_set [BEq β] {l : List α} {a : α} (f : α → Option β) (hl : l[i]? = some a)
    (b : α) (x : β) :
    ((l.set i b).filterMap f).count x + (f a).toList.count x =
      (l.filterMap f).count x + (f b).toList.count x := by
  induction l generalizing i with
  | nil => simp at hl
  | cons c l ih =>
    cases i with
    | zero =>
      obtain rfl : c = a := by simpa using hl
      simp only [List.set_cons_zero, List.filterMap_cons]
      cases f b <;> cases f c <;> simp [List.count_cons] <;> omega
    | succ i =>
      have := ih (i := i) (by simpa using hl)
      simp only [List.set_cons_succ, List.filterMap_cons]
      cases f c <;> simp [List.count_cons] <;> omega

theorem filterMap_set_of_eq {l : List α} {a b : α} {f : α → Option β} (hl : l[i]? = some a)
    (h : f b = f a) : (l.set i b).filterMap f = l.filterMap f := by
  induction l generalizing i with
  | nil => simp at hl
  | cons c l ih =>
    cases i with
    | zero =>
      obtain rfl : c = a := by simpa using hl
      rw [List.set_cons_zero, List.filterMap_cons, List.filterMap_cons, h]
    | succ i =>
      have ih := ih (i := i) (by simpa using hl)
      rw [List.set_cons_succ, List.filterMap_cons, List.filterMap_cons, ih]

namespace Trace

variable {rules : Rules σ} {options : Options} {store : σ} {units : List ScanUnit}

theorem rules_eq (ht : Trace (.start rules options store units) h s) : s.rules = rules :=
  ht.invariant (I := fun _ s => s.rules = rules) rfl fun _ hI hs => by cases hs <;> exact hI

theorem options_eq (ht : Trace (.start rules options store units) h s) : s.options = options :=
  ht.invariant (I := fun _ s => s.options = options) rfl fun _ hI hs => by cases hs <;> exact hI

theorem length_workers (ht : Trace (.start rules options store units) h s) :
    s.workers.length = max options.workers 1 :=
  ht.invariant (I := fun _ s => s.workers.length = max options.workers 1)
    (List.length_replicate ..) fun _ hI hs => by
      cases hs <;> simpa [State.setWorker, State.number, State.emitReport, State.deposit] using hI

theorem units_eq (ht : Trace (.start rules options store units) h s) :
    s.units = units.drop s.nextNumber :=
  ht.invariant (I := fun _ s => s.units = units.drop s.nextNumber) rfl fun _ hI hs => by
    cases hs
    case number hd hu hb =>
      simp only [State.number]
      rw [hu] at hI
      rw [← List.drop_drop, ← hI, List.drop_one, List.tail_cons]
    all_goals exact hI

theorem nextNumber_le (ht : Trace (.start rules options store units) h s) :
    s.nextNumber ≤ units.length :=
  ht.invariant (I := fun _ s => s.nextNumber ≤ units.length) (Nat.zero_le _) fun ht hI hs => by
    cases hs
    case number hd hu hb =>
      have := congrArg List.length ht.units_eq
      rw [hu, List.length_cons, List.length_drop] at this
      simp only [State.number]
      omega
    all_goals exact hI

theorem next_unit (ht : Trace (.start rules options store units) h s)
    (hu : s.units = unit :: rest) : units[s.nextNumber]? = some unit := by
  have h := ht.units_eq
  rw [hu] at h
  rw [← List.head?_drop, ← h, List.head?_cons]

theorem units_ne_nil (ht : Trace (.start rules options store units) h s)
    (hd : s.dispatcher = .waiting ∨ s.dispatcher = .admitted) : s.units ≠ [] := by
  revert hd
  refine ht.invariant (I := fun _ s => s.dispatcher = .waiting ∨ s.dispatcher = .admitted →
    s.units ≠ []) (by simp [State.start]) fun {h s p h' t} _ hI hs => ?_
  cases hs
  case await hd hu hb => simp [hu]
  case acquire hd hc => exact fun _ => hI (.inl hd)
  case take | quit | make | put | send | emit | receive | stop => exact hI
  all_goals simp [State.number]

theorem countOf_eq (ht : Trace (.start rules options store units) h s) {id : UnitId}
    (hid : id.scope = .package) : s.countOf id = (since units id s.nextNumber).length := by
  refine ht.invariant (I := fun _ s => s.countOf id = (since units id s.nextNumber).length) rfl
    fun {h s p h' t} ht hI hs => ?_
  cases hs
  case number unit rest hd hu hb =>
    have hn := ht.next_unit hu
    simp only [State.number, since, hn]
    by_cases hbelow : unit.liesBelow id = true
    · obtain ⟨hscope, hparent⟩ := ScanUnit.liesBelow_iff.1 hbelow
      simp [State.countOf, State.countsAfter, hscope, hparent, hbelow, ← hI]
    · by_cases heq : unit.id = id
      · have hscope : unit.scope = .package := by
          rw [ScanUnit.scope, heq, hid]
        simp [State.countOf, State.countsAfter, hscope, heq, hbelow, lookup_filter_self]
      · have hother : (s.number unit rest).countOf id = s.countOf id := by
          simp only [State.number, State.countOf, State.countsAfter]
          split
          case h_1 parent hscope hparent =>
            have hne : id ≠ parent := by
              rintro rfl
              exact hbelow (ScanUnit.liesBelow_iff.2 ⟨hscope, hparent⟩)
            rw [List.lookup_cons, beq_false_of_ne hne, lookup_filter_of_ne hne]
          case h_2 => rw [lookup_filter_of_ne (Ne.symm heq)]
          case h_3 => rfl
        simpa [hbelow, heq, State.number, hI] using hother
  all_goals exact hI

theorem childrenOf_eq (ht : Trace (.start rules options store units) h s) (unit : ScanUnit) :
    s.childrenOf unit = (workOf units s.nextNumber unit).children := by
  simp only [State.childrenOf, workOf]
  split
  case isTrue hscope => exact ht.countOf_eq hscope
  case isFalse => rfl

theorem handed_append (ht : Trace (.start rules options store units) h s) :
    h.handed ++ s.queue ++ s.dispatcher.work?.toList = (works units).take s.nextNumber := by
  refine ht.invariant (I := fun h s =>
    h.handed ++ s.queue ++ s.dispatcher.work?.toList = (works units).take s.nextNumber) rfl
    fun {h s p h' t} ht hI hs => ?_
  cases hs
  case number unit rest hd hu hb =>
    simp only [State.number]
    rw [works_take_succ (ht.next_unit hu), ← hI, hd, ht.childrenOf_eq]
    simp [Dispatcher.work?, workOf]
  case enqueue hd hq =>
    rw [hd] at hI
    simpa [Dispatcher.work?] using hI
  case take hw hq =>
    rw [hq] at hI
    simpa [State.setWorker] using hI
  all_goals simp_all [Dispatcher.work?, State.setWorker, State.deposit, State.emitReport]

theorem handed_eq_take (ht : Trace (.start rules options store units) h s) :
    h.handed = (works units).take h.handed.length := by
  have hpre : h.handed <+: (works units).take s.nextNumber := by
    rw [← ht.handed_append, List.append_assoc]
    exact List.prefix_append ..
  exact List.prefix_iff_eq_take.1 (hpre.trans (List.take_prefix ..))

theorem length_handed_le (ht : Trace (.start rules options store units) h s) :
    h.handed.length ≤ s.nextNumber := by
  have := congrArg List.length ht.handed_append
  simp only [List.length_append, List.length_take] at this
  omega

theorem map_number_handed (ht : Trace (.start rules options store units) h s) :
    h.handed.map Work.number = List.range h.handed.length := by
  have hle := Nat.le_trans ht.length_handed_le ht.nextNumber_le
  conv => lhs; rw [ht.handed_eq_take]
  exact map_number_works_take units hle

theorem held_perm (ht : Trace (.start rules options store units) h s) :
    (s.workers.filterMap Worker.held? ++ h.made.map Made.work).Perm h.handed := by
  refine ht.invariant (I := fun h s =>
    (s.workers.filterMap Worker.held? ++ h.made.map Made.work).Perm h.handed)
    (by simp [State.start, History.empty, Worker.held?]) fun {h s p h' t} ht hI hs => ?_
  simp only [List.perm_iff_count, List.count_append] at hI ⊢
  intro x
  specialize hI x
  cases hs
  case take i work queue hw hq =>
    have := count_filterMap_set Worker.held? hw (.holding work) x
    simp only [State.setWorker, List.count_append, Worker.held?, Option.toList] at this ⊢
    simp only [List.count_nil] at this
    omega
  case make i work taken hw hc =>
    have := count_filterMap_set Worker.held? hw (.depositing work (s.reportOf work taken).1) x
    simp only [State.setWorker, List.map_append, List.count_append, Worker.held?, Option.toList,
      List.map_cons, List.map_nil, List.count_nil] at this ⊢
    omega
  case quit i hw hq hd | put i work report hw | send i number report hw =>
    simp only [State.setWorker, State.deposit]
    rw [filterMap_set_of_eq hw]
    · exact hI
    · rfl
  all_goals exact hI

theorem made_nodup (ht : Trace (.start rules options store units) h s) :
    (h.made.map fun m => m.work.number).Nodup := by
  have hperm := ht.held_perm.map Work.number
  rw [ht.map_number_handed, List.map_append, List.map_map] at hperm
  exact (List.nodup_append.1 (hperm.nodup_iff.2 List.nodup_range)).2.1

theorem numbered_nodup (ht : Trace (.start rules options store units) h s) :
    ((h.made.map Made.numbered).map (·.1)).Nodup := by
  rw [List.map_map]
  exact ht.made_nodup

theorem lookup_numbered (ht : Trace (.start rules options store units) h s) {m : Made}
    (hm : m ∈ h.made) : (h.made.map Made.numbered).lookup m.work.number = some m.report :=
  lookup_of_mem ht.numbered_nodup (List.mem_map_of_mem hm)

theorem map_fst_emitted (ht : Trace (.start rules options store units) h s) :
    h.emitted.map (·.1) = List.range s.nextOut := by
  refine ht.invariant (I := fun h s => h.emitted.map (·.1) = List.range s.nextOut) rfl
    fun {h s p h' t} ht hI hs => ?_
  cases hs
  case emit report hp =>
    simp only [State.emitReport, List.map_append, hI, List.range_succ]
    rfl
  all_goals exact hI

theorem reports_perm (ht : Trace (.start rules options store units) h s) :
    (s.workers.filterMap Worker.report? ++ s.results ++ s.pending ++ h.emitted).Perm
      (h.made.map Made.numbered) := by
  refine ht.invariant (I := fun h s =>
    (s.workers.filterMap Worker.report? ++ s.results ++ s.pending ++ h.emitted).Perm
      (h.made.map Made.numbered))
    (by simp [State.start, History.empty, Worker.report?]) fun {h s p h' t} ht hI hs => ?_
  have hperm := hI
  simp only [List.perm_iff_count, List.count_append] at hI ⊢
  intro x
  specialize hI x
  cases hs
  case take i work queue hw hq | quit i hw hq hd | put i work report hw =>
    simp only [State.setWorker, State.deposit]
    rw [filterMap_set_of_eq hw]
    · exact hI
    · rfl
  case make i work taken hw hc =>
    have := count_filterMap_set Worker.report? hw (.depositing work (s.reportOf work taken).1) x
    simp only [State.setWorker, List.map_append, List.count_append, Worker.report?, Option.toList,
      List.map_cons, List.map_nil, List.count_nil, Made.numbered] at this ⊢
    omega
  case send i number report hw =>
    have := count_filterMap_set Worker.report? hw .idle x
    simp only [State.setWorker, List.count_append, Worker.report?, Option.toList,
      List.count_nil] at this ⊢
    omega
  case emit report hp =>
    have hnodup : (s.pending.map (·.1)).Nodup := by
      have hkeys := (hperm.map (·.1)).nodup_iff.2 ht.numbered_nodup
      simp only [List.map_append] at hkeys
      exact (List.nodup_append.1 (List.nodup_append.1 hkeys).1).2.1
    have := (perm_cons_filter hnodup hp).count_eq x
    simp only [State.emitReport, List.count_append, List.count_cons, List.count_nil] at this ⊢
    omega
  case receive result results hp hr =>
    rw [hr] at hI
    simp only [List.count_cons] at hI ⊢
    omega
  all_goals exact hI

theorem exists_made_of_emitted (ht : Trace (.start rules options store units) h s)
    {p : Nat × UnitReport} (hp : p ∈ h.emitted) : ∃ m ∈ h.made, m.numbered = p :=
  List.mem_map.1 (ht.reports_perm.mem_iff.1 (List.mem_append_right _ hp))

theorem exists_made_of_out (ht : Trace (.start rules options store units) h s) {n : Nat}
    (hn : n < s.nextOut) : ∃ m ∈ h.made, m.work.number = n ∧ (n, m.report) ∈ h.emitted := by
  rw [← List.mem_range, ← ht.map_fst_emitted] at hn
  obtain ⟨p, hp, rfl⟩ := List.mem_map.1 hn
  obtain ⟨m, hm, rfl⟩ := ht.exists_made_of_emitted hp
  exact ⟨m, hm, rfl, hp⟩

theorem collect_perm {s : State σ} (hc : s.collect? work = some taken) :
    (taken ++ s.depositsAfter work).Perm s.deposits := by
  simp only [State.collect?, State.depositsAfter] at hc ⊢
  split at hc
  case isTrue hcollects =>
    split at hc
    case isTrue => cases hc
    case isFalse =>
      cases hc
      rw [if_pos hcollects, State.depositsFor]
      calc
        _ = _ ++ s.deposits.filter fun d => !(d.owner == work.unit.id) := rfl
        (_ : List Deposit).Perm _ := (List.mergeSort_perm _ _).append_right _
        (_ : List Deposit).Perm _ := List.filter_append_perm _ _
  case isFalse hcollects =>
    cases hc
    rw [if_neg hcollects, List.nil_append]

theorem deposits_perm (ht : Trace (.start rules options store units) h s) :
    (s.deposits ++ h.made.flatMap Made.taken ++
        s.workers.filterMap (Worker.deposit? rules)).Perm
      (h.made.filterMap (Made.deposit? rules)) := by
  refine ht.invariant (I := fun h s =>
    (s.deposits ++ h.made.flatMap Made.taken ++
        s.workers.filterMap (Worker.deposit? rules)).Perm
      (h.made.filterMap (Made.deposit? rules)))
    (by simp [State.start, History.empty, Worker.deposit?]) fun {h s p h' t} ht hI hs => ?_
  simp only [List.perm_iff_count, List.count_append] at hI ⊢
  intro x
  specialize hI x
  cases hs
  case take i work queue hw hq | quit i hw hq hd | send i number report hw =>
    simp only [State.setWorker]
    rw [filterMap_set_of_eq hw]
    · exact hI
    · rfl
  case make i work taken hw hc =>
    have hset := count_filterMap_set (Worker.deposit? rules) hw
      (.depositing work (s.reportOf work taken).1) x
    have htaken := (collect_perm hc).count_eq x
    simp only [State.setWorker, List.flatMap_append, List.filterMap_append, List.count_append,
      List.flatMap_cons, List.flatMap_nil, List.append_nil, List.filterMap_cons,
      List.filterMap_nil, Worker.deposit?, Made.deposit?, Option.toList, List.count_nil]
      at hset htaken ⊢
    cases hd : State.deposit? rules work (s.reportOf work taken).1 <;>
      simp only [hd, List.count_nil] at hset ⊢ <;> omega
  case put i work report hw =>
    have := count_filterMap_set (Worker.deposit? rules) hw (.sending work.number report) x
    simp only [State.setWorker, State.deposit, ht.rules_eq, List.count_append, Worker.deposit?,
      Option.toList, List.count_nil] at this ⊢
    omega
  all_goals exact hI

/-- A stop can cost the one credit that was taken for a unit that is not given out. -/
theorem credits_eq (ht : Trace (.start rules options store units) h s) :
    ∃ lost ≤ 1, (lost = 1 → s.dispatcher = .finished true) ∧
      s.credits + s.dispatcher.credits + lost + s.nextNumber =
        max options.window 1 + s.nextOut := by
  refine ht.invariant (I := fun _ s => ∃ lost ≤ 1, (lost = 1 → s.dispatcher = .finished true) ∧
      s.credits + s.dispatcher.credits + lost + s.nextNumber =
        max options.window 1 + s.nextOut) ⟨0, by simp [State.start, Dispatcher.credits]⟩
    fun {h s p h' t} ht hI hs => ?_
  obtain ⟨lost, hle, hlost, heq⟩ := hI
  have hzero (hd : s.dispatcher ≠ .finished true) : lost = 0 := by
    have := mt hlost hd
    omega
  cases hs
  case exhaust hd hu | refuse hd hu hb | await hd hu hb | enqueue hd hq =>
    rw [hd] at heq hzero
    exact ⟨0, by simp, by simp, by simpa [hzero, Dispatcher.credits] using heq⟩
  case acquire hd hc =>
    rw [hd] at heq hzero
    refine ⟨0, by simp, by simp, ?_⟩
    simp only [Dispatcher.credits] at heq ⊢
    have := hzero (by simp)
    omega
  case cancel hd hu hb =>
    rw [hd] at heq hzero
    refine ⟨1, by simp, by simp, ?_⟩
    simp only [Dispatcher.credits] at heq ⊢
    have := hzero (by simp)
    omega
  case number hd hu hb =>
    rw [hd] at heq hzero
    refine ⟨0, by simp, by simp, ?_⟩
    simp only [Dispatcher.credits, State.number] at heq ⊢
    have := hzero (by simp)
    omega
  case lapse hd hu => exact absurd hu (ht.units_ne_nil (.inr hd))
  case emit => exact ⟨lost, hle, hlost, by simp only [State.emitReport]; omega⟩
  all_goals exact ⟨lost, hle, hlost, heq⟩

end Trace

end EbuildAudit.Scan
