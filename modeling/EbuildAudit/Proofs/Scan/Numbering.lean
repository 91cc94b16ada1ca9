import EbuildAudit.Proofs.Scan.Trace

namespace EbuildAudit

variable {units : List ScanUnit} {unit : ScanUnit} {id parent : UnitId} {n v : Nat}

def ScanUnit.liesBelow (unit : ScanUnit) (id : UnitId) : Bool :=
  unit.scope == .version && unit.parent? == some id

theorem ScanUnit.liesBelow_iff :
    unit.liesBelow id = true ↔ unit.scope = .version ∧ unit.parent? = some id := by
  simp [liesBelow]

theorem ScanUnit.liesBelow_unique {other : UnitId} (h : unit.liesBelow id = true)
    (h' : unit.liesBelow other = true) : id = other :=
  Option.some.inj ((liesBelow_iff.1 h).2.symm.trans (liesBelow_iff.1 h').2)

theorem ScanUnit.scope_congr {other : ScanUnit} (h : unit.id = other.id) :
    unit.scope = other.scope :=
  congrArg UnitId.scope h

theorem UnitId.scope_parent (h : id.scope = .version)
    (hp : id.parent? = some parent) : parent.scope = .package := by
  cases id <;> simp_all [UnitId.scope, UnitId.parent?]
  subst hp
  rfl

theorem ScanUnit.liesBelow_ne (h : unit.liesBelow id = true) : unit.id ≠ id := by
  rintro rfl
  obtain ⟨hs, hp⟩ := liesBelow_iff.1 h
  have := UnitId.scope_parent hs hp
  simp_all [ScanUnit.scope]

namespace Scan

/-- The numbers below `n` of the units below `id` that come after the last unit `id` itself. -/
def since (units : List ScanUnit) (id : UnitId) : Nat → List Nat
  | 0 => []
  | n + 1 =>
    match units[n]? with
    | some unit =>
      if unit.liesBelow id then since units id n ++ [n]
      else if unit.id = id then []
      else since units id n
    | none => since units id n

def workOf (units : List ScanUnit) (n : Nat) (unit : ScanUnit) : Work :=
  ⟨n, unit, if unit.scope = .package then (since units unit.id n).length else 0⟩

def works (units : List ScanUnit) : List Work :=
  units.mapIdx (workOf units)

@[simp] theorem getElem?_works (units : List ScanUnit) (n : Nat) :
    (works units)[n]? = units[n]?.map (workOf units n) := by
  simp [works]

theorem mem_works {work : Work} (h : work ∈ works units) :
    units[work.number]? = some work.unit ∧ work = workOf units work.number work.unit := by
  obtain ⟨n, hn⟩ := List.getElem?_of_mem h
  rw [getElem?_works] at hn
  obtain ⟨unit, hu, rfl⟩ := Option.map_eq_some_iff.1 hn
  exact ⟨hu, rfl⟩

theorem works_take_succ (h : units[n]? = some unit) :
    (works units).take (n + 1) = (works units).take n ++ [workOf units n unit] := by
  simp [List.take_add_one, h]

theorem map_number_works_take (units : List ScanUnit) (h : n ≤ units.length) :
    ((works units).take n).map Work.number = List.range n := by
  induction n with
  | zero => simp
  | succ n ih =>
    obtain ⟨unit, hu⟩ : ∃ unit, units[n]? = some unit := ⟨_, List.getElem?_eq_getElem h⟩
    rw [works_take_succ hu, List.map_append, ih (by omega), List.range_succ]
    rfl

theorem since_lt (h : v ∈ since units id n) : v < n := by
  induction n with
  | zero => simp [since] at h
  | succ n ih =>
    simp only [since] at h
    split at h
    · split at h
      · rcases List.mem_append.1 h with h | h
        · exact Nat.lt_succ_of_lt (ih h)
        · simp_all
      · split at h
        · simp at h
        · exact Nat.lt_succ_of_lt (ih h)
    · exact Nat.lt_succ_of_lt (ih h)

private theorem between_succ (hu : units[n]? = some unit) (hv : v < n) :
    (∀ m other, v < m → m < n + 1 → units[m]? = some other → other.id ≠ id) ↔
      (∀ m other, v < m → m < n → units[m]? = some other → other.id ≠ id) ∧ unit.id ≠ id := by
  constructor
  · intro h
    exact ⟨fun m other hvm hmn => h m other hvm (by omega), h n unit hv (by omega) hu⟩
  · rintro ⟨h, hid⟩ m other hvm hmn hm
    by_cases hn : m = n
    · subst hn
      rw [hu] at hm
      cases hm
      exact hid
    · exact h m other hvm (by omega) hm

theorem mem_since (hn : n ≤ units.length) :
    v ∈ since units id n ↔
      v < n ∧ (∃ unit, units[v]? = some unit ∧ unit.liesBelow id = true) ∧
        ∀ m other, v < m → m < n → units[m]? = some other → other.id ≠ id := by
  induction n with
  | zero => simp [since]
  | succ n ih =>
    obtain ⟨unit, hu⟩ : ∃ unit, units[n]? = some unit := ⟨_, List.getElem?_eq_getElem hn⟩
    specialize ih (by omega)
    by_cases hvn : v = n
    · -- `n` itself: it is there if its unit lies below, and nothing is in between
      subst hvn
      have hnot : v ∉ since units id v := fun h => Nat.lt_irrefl v (since_lt h)
      have hbetween : ∀ m other, v < m → m < v + 1 → units[m]? = some other → other.id ≠ id :=
        fun m _ hvm hmn => by omega
      simp only [since, hu]
      by_cases hb : unit.liesBelow id = true
      · simpa [hb] using hbetween
      · by_cases hid : unit.id = id <;> simp [hb, hid, hnot]
    · by_cases hlt : v < n
      · rw [between_succ hu hlt]
        simp only [since, hu]
        by_cases hb : unit.liesBelow id = true
        · have hid := ScanUnit.liesBelow_ne hb
          simp [hb, hid, ih, hvn, hlt, Nat.lt_succ_of_lt hlt]
        · by_cases hid : unit.id = id <;> simp [hb, hid, ih, hlt, Nat.lt_succ_of_lt hlt]
      · have hnot : v ∉ since units id (n + 1) := fun h => by have := since_lt h; omega
        have hnlt : ¬v < n + 1 := by omega
        simp [hnot, hnlt]

theorem since_pairwise (units : List ScanUnit) (id : UnitId) (n : Nat) :
    (since units id n).Pairwise (· < ·) := by
  induction n with
  | zero => simp [since]
  | succ n ih =>
    simp only [since]
    split
    · split
      · rw [List.pairwise_append]
        refine ⟨ih, List.pairwise_singleton _ _, fun v hv m hm => ?_⟩
        rw [List.mem_singleton.1 hm]
        exact since_lt hv
      · split
        · exact List.Pairwise.nil
        · exact ih
    · exact ih

theorem since_nodup (units : List ScanUnit) (id : UnitId) (n : Nat) : (since units id n).Nodup :=
  (since_pairwise units id n).imp Nat.ne_of_lt

end Scan

end EbuildAudit
