import EbuildAudit.Proofs.Scan.Conservation
import EbuildAudit.Scan.Protocol

namespace EbuildAudit.Scan

structure Rules.Aggregating (rules : Rules σ) : Prop where
  collects_package : rules.collects unit = true → unit.scope = .package
  collects_of_scope : rules.collects unit = true → other.scope = .package →
    rules.collects other = true
  deposits_version : rules.deposits unit = true → unit.scope = .version
  deposits_of_collects : rules.collects package = true → unit.scope = .version →
    rules.deposits unit = true

theorem rules_aggregating (plan : Plan) (grammar : Grammar) :
    (rules plan grammar).Aggregating where
  collects_package hc := by
    simp only [rules, Bool.and_eq_true, beq_iff_eq] at hc
    exact hc.1
  collects_of_scope hc hp := by
    simp only [rules, Bool.and_eq_true, beq_iff_eq] at hc ⊢
    exact ⟨hp, hc.2⟩
  deposits_version hd := by
    simp only [rules, Bool.and_eq_true, beq_iff_eq] at hd
    exact hd.2
  deposits_of_collects hc hv := by
    simp only [rules, Bool.and_eq_true, beq_iff_eq, List.any_eq_true] at hc ⊢
    obtain ⟨-, c, hmem, hneeds⟩ := hc
    exact ⟨List.any_eq_true.2 ⟨c, (List.mem_filter.1 hmem).1, hneeds⟩, hv⟩

variable {rules : Rules σ} {options : Options} {store : σ} {units : List ScanUnit}
  {h : History} {s : State σ} {work : Work} {taken : List Deposit} {report : UnitReport} {m : Made}
  {unit : ScanUnit} {id : UnitId} {d : Deposit} {i v : Nat}

theorem length_depositsFor (s : State σ) (id : UnitId) :
    (s.depositsFor id).length = s.deposits.countP (·.owner == id) := by
  rw [State.depositsFor, List.length_mergeSort, List.countP_eq_length_filter]

theorem collect_eq_none_iff : s.collect? work = none ↔
    s.rules.collects work.unit = true ∧ (s.depositsFor work.unit.id).length < work.children := by
  simp only [State.collect?]
  split
  case isTrue hcollects => split <;> simp_all
  case isFalse hcollects => simp [hcollects]

theorem collect_of_le (hcollects : s.rules.collects work.unit = true)
    (hle : work.children ≤ (s.depositsFor work.unit.id).length) :
    s.collect? work = some (s.depositsFor work.unit.id) := by
  simp only [State.collect?]
  rw [if_pos hcollects, if_neg (Nat.not_lt_of_le hle)]

theorem collect_of_not (hcollects : s.rules.collects work.unit = false) :
    s.collect? work = some [] := by
  simp [State.collect?, hcollects]

theorem collect_eq_some (hc : s.collect? work = some taken) :
    (s.rules.collects work.unit = true ∧ taken = s.depositsFor work.unit.id ∧
      work.children ≤ taken.length) ∨ (s.rules.collects work.unit = false ∧ taken = []) := by
  simp only [State.collect?] at hc
  split at hc
  case isTrue hcollects =>
    split at hc
    case isTrue => cases hc
    case isFalse hlt => cases hc; exact .inl ⟨hcollects, rfl, by omega⟩
  case isFalse hcollects => cases hc; exact .inr ⟨by simpa using hcollects, rfl⟩

theorem mem_depositsFor : d ∈ s.depositsFor id ↔ d ∈ s.deposits ∧ d.owner = id := by
  simp [State.depositsFor]

theorem length_since_le_depositsFor {n : Nat}
    (h : ∀ v ∈ since units id n, ∃ d ∈ s.deposits, d.owner = id ∧ d.number = v) :
    (since units id n).length ≤ (s.depositsFor id).length := by
  have hsub : since units id n ⊆ (s.depositsFor id).map Deposit.number := by
    intro v hv
    obtain ⟨d, hd, howner, rfl⟩ := h v hv
    exact List.mem_map_of_mem (mem_depositsFor.2 ⟨hd, howner⟩)
  have hle := (since_nodup units id n).length_le_of_subset hsub
  rwa [List.length_map] at hle

theorem deposit_eq_some (hd : State.deposit? rules work report = some d) :
    rules.deposits work.unit = true ∧ work.unit.parent? = some d.owner ∧ d.number = work.number ∧
      d.issues = report.issues := by
  simp only [State.deposit?] at hd
  split at hd
  case isTrue hdep =>
    obtain ⟨parent, hp, rfl⟩ := Option.map_eq_some_iff.1 hd
    exact ⟨hdep, hp, rfl, rfl⟩
  case isFalse => cases hd

namespace Trace

theorem mem_handed (ht : Trace (.start rules options store units) h s)
    (hw : work ∈ h.handed) :
    units[work.number]? = some work.unit ∧ work = workOf units work.number work.unit := by
  rw [ht.handed_eq_take] at hw
  exact mem_works (List.mem_of_mem_take hw)

theorem number_lt (ht : Trace (.start rules options store units) h s) (hw : work ∈ h.handed) :
    work.number < h.handed.length := by
  have := List.mem_map_of_mem (f := Work.number) hw
  rwa [ht.map_number_handed, List.mem_range] at this

theorem number_lt_units (ht : Trace (.start rules options store units) h s)
    (hw : work ∈ h.handed) : work.number < units.length :=
  (List.getElem?_eq_some_iff.1 (ht.mem_handed hw).1).1

theorem handed_of_held (ht : Trace (.start rules options store units) h s)
    (hw : s.workers[i]? = some (.holding work)) : work ∈ h.handed :=
  ht.held_perm.mem_iff.1 (List.mem_append_left _
    (List.mem_filterMap.2 ⟨_, List.mem_of_getElem? hw, rfl⟩))

theorem handed_of_made (ht : Trace (.start rules options store units) h s) (hm : m ∈ h.made) :
    m.work ∈ h.handed :=
  ht.held_perm.mem_iff.1 (List.mem_append_right _ (List.mem_map_of_mem hm))

theorem unit_of_made (ht : Trace (.start rules options store units) h s) (hm : m ∈ h.made) :
    units[m.work.number]? = some m.work.unit :=
  (ht.mem_handed (ht.handed_of_made hm)).1

theorem held_ne_made (ht : Trace (.start rules options store units) h s)
    (hw : s.workers[i]? = some (.holding work)) (hm : m ∈ h.made) :
    m.work.number ≠ work.number := by
  have hnodup := (ht.held_perm.map Work.number).nodup_iff.2
    (ht.map_number_handed ▸ List.nodup_range)
  rw [List.map_append, List.nodup_append] at hnodup
  refine (hnodup.2.2 work.number ?_ m.work.number ?_).symm
  · exact List.mem_map_of_mem (List.mem_filterMap.2 ⟨_, List.mem_of_getElem? hw, rfl⟩)
  · exact List.mem_map_of_mem (List.mem_map_of_mem hm)

theorem depositing_made (ht : Trace (.start rules options store units) h s) :
    ∀ (i : Nat) work report, s.workers[i]? = some (.depositing work report) →
      ∃ m ∈ h.made, m.work = work ∧ m.report = report := by
  refine ht.invariant (I := fun h s => ∀ (i : Nat) work report,
    s.workers[i]? = some (.depositing work report) →
      ∃ m ∈ h.made, m.work = work ∧ m.report = report)
    (by simp [State.start, List.getElem?_replicate]) fun {h s p h' t} ht hI hs => ?_
  have hset {w : Worker} (j : Nat) (hw : ∀ work report, w ≠ .depositing work report) :
      ∀ (i : Nat) work report, (s.workers.set j w)[i]? = some (.depositing work report) →
        ∃ m ∈ h.made, m.work = work ∧ m.report = report := by
    intro i work report hi
    rw [List.getElem?_set] at hi
    split at hi
    · split at hi
      · exact absurd (Option.some.inj hi) (hw work report)
      · cases hi
    · exact hI i work report hi
  cases hs
  case take j work queue hw hq => exact hset j (by simp)
  case quit j hw hq hd => exact hset j (by simp)
  case put j work report hw => exact hset j (by simp)
  case send j number report hw => exact hset j (by simp)
  case make j work taken hw hc =>
    intro i work' report hi
    simp only [State.setWorker, List.getElem?_set] at hi
    split at hi
    · split at hi
      · cases hi
        exact ⟨_, List.mem_append_right _ (List.mem_singleton.2 rfl), rfl, rfl⟩
      · cases hi
    · obtain ⟨m, hm, hmade⟩ := hI i work' report hi
      exact ⟨m, List.mem_append_left _ hm, hmade⟩
  all_goals exact hI

theorem taken_owner (ht : Trace (.start rules options store units) h s) :
    ∀ m ∈ h.made, ∀ d ∈ m.taken, rules.collects m.work.unit = true ∧ d.owner = m.work.unit.id := by
  refine ht.invariant (I := fun h _ => ∀ m ∈ h.made, ∀ d ∈ m.taken,
    rules.collects m.work.unit = true ∧ d.owner = m.work.unit.id)
    (by simp [History.empty]) fun {h s p h' t} ht hI hs => ?_
  cases hs
  case make i work taken hw hc =>
    intro m hm d hd
    rcases List.mem_append.1 hm with hm | hm
    · exact hI m hm d hd
    · rw [List.mem_singleton] at hm
      subst hm
      rcases collect_eq_some hc with ⟨hcollects, rfl, -⟩ | ⟨-, rfl⟩
      · exact ⟨ht.rules_eq ▸ hcollects, (mem_depositsFor.1 hd).2⟩
      · cases hd
  all_goals exact hI

theorem deposit_source (ht : Trace (.start rules options store units) h s)
    (hd : d ∈ s.deposits ∨ ∃ m ∈ h.made, d ∈ m.taken) :
    ∃ m ∈ h.made, m.deposit? rules = some d := by
  have hmem : d ∈ h.made.filterMap (Made.deposit? rules) := by
    rw [← ht.deposits_perm.mem_iff, List.mem_append, List.mem_append, List.mem_flatMap]
    exact .inl hd
  exact List.mem_filterMap.1 hmem

theorem deposit_below (ht : Trace (.start rules options store units) h s)
    (hrules : rules.Aggregating)
    (hd : d ∈ s.deposits ∨ ∃ m ∈ h.made, d ∈ m.taken) :
    d.number < h.handed.length ∧
      ∃ unit, units[d.number]? = some unit ∧ unit.liesBelow d.owner = true := by
  obtain ⟨m, hm, hdep⟩ := ht.deposit_source hd
  obtain ⟨hdeposits, hparent, hnumber, -⟩ := deposit_eq_some hdep
  have hhanded := ht.handed_of_made hm
  obtain ⟨hu, -⟩ := ht.mem_handed hhanded
  refine ⟨hnumber ▸ ht.number_lt hhanded, m.work.unit, hnumber ▸ hu, ?_⟩
  rw [ScanUnit.liesBelow_iff]
  exact ⟨hrules.deposits_version hdeposits, hparent⟩

/-- Where a version that was handed to a worker is, as long as nothing else is done for it. -/
theorem version_whereabouts (ht : Trace (.start rules options store units) h s)
    (hdeposits : rules.deposits unit = true) (hu : units[v]? = some unit)
    (hbelow : unit.liesBelow id = true) (hv : v < h.handed.length) :
    (∃ i : Nat, s.workers[i]? = some (.holding (workOf units v unit))) ∨
      (∃ (i : Nat) (report : UnitReport),
        s.workers[i]? = some (.depositing (workOf units v unit) report)) ∨
        ∃ d, d.number = v ∧ d.owner = id ∧ (d ∈ s.deposits ∨ ∃ m ∈ h.made, d ∈ m.taken) := by
  have hhanded : workOf units v unit ∈ h.handed := by
    have hget : h.handed[v]? = some (workOf units v unit) := by
      rw [ht.handed_eq_take, List.getElem?_take_of_lt hv, getElem?_works, hu]
      rfl
    exact List.mem_of_getElem? hget
  rw [← ht.held_perm.mem_iff, List.mem_append, List.mem_filterMap, List.mem_map] at hhanded
  rcases hhanded with ⟨w, hw, hheld⟩ | ⟨m, hm, hwork⟩
  · cases w <;> cases hheld
    exact .inl (List.getElem?_of_mem hw)
  · obtain ⟨-, hparent⟩ := ScanUnit.liesBelow_iff.1 hbelow
    have hdep : m.deposit? rules = some ⟨id, v, m.report.issues⟩ := by
      simp [Made.deposit?, State.deposit?, hwork, workOf, hdeposits, hparent]
    have hmem := List.mem_filterMap.2 ⟨m, hm, hdep⟩
    rw [← ht.deposits_perm.mem_iff, List.mem_append, List.mem_append, List.mem_flatMap,
      List.mem_filterMap] at hmem
    rcases hmem with hmem | ⟨w, hw, hput⟩
    · exact .inr (.inr ⟨_, rfl, rfl, hmem⟩)
    · cases w with
      | depositing work report =>
        obtain ⟨i, hi⟩ := List.getElem?_of_mem hw
        obtain ⟨m', hm', rfl, rfl⟩ := ht.depositing_made i work report hi
        obtain ⟨-, -, hnumber, -⟩ := deposit_eq_some hput
        obtain ⟨hu', hwork'⟩ := ht.mem_handed (ht.handed_of_made hm')
        rw [← hnumber, hu] at hu'
        rw [← hnumber, ← Option.some.inj hu'] at hwork'
        exact .inr (.inl ⟨i, _, hwork' ▸ hi⟩)
      | _ => cases hput

end Trace

end EbuildAudit.Scan
