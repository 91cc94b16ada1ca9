import EbuildAudit.Proofs.Scan.Progress
import Mathlib.Data.List.Perm.Subperm

/-!
What a package is given. A package takes everything that is put aside under its name, so it matters
that the versions after it, and the package itself when it comes again, do not overtake it.
-/

namespace EbuildAudit.Scan

/-- A unit that spoils an earlier package if it overtakes it: a version of the package, or the
package once more, which takes what the first was to get. -/
def Disturbs (units : List ScanUnit) (i j : Nat) : Prop :=
  i < j ∧ ∃ a b, units[i]? = some a ∧ units[j]? = some b ∧ a.scope = .package ∧
    (b.liesBelow a.id = true ∨ (b.id = a.id ∧ since units a.id i ≠ []))

/-- Every report is made after those that it could spoil. -/
def Orderly (units : List ScanUnit) (made : List Made) : Prop :=
  ∀ l₁ m l₂, made = l₁ ++ m :: l₂ → ∀ i, Disturbs units i m.work.number →
    i ∈ l₁.map fun m => m.work.number

/-- One worker works alone, or what could overtake a package comes too late for the window. -/
def Calm (workers window : Nat) (units : List ScanUnit) : Prop :=
  workers ≤ 1 ∨ ∀ i j, j < i + max window 1 → ¬Disturbs units i j

variable {rules : Rules σ} {options : Options} {store : σ} {units : List ScanUnit}
  {h : History} {s : State σ} {work : Work} {taken : List Deposit} {report : UnitReport} {m : Made}
  {unit : ScanUnit} {id : UnitId} {d : Deposit} {i v : Nat}

namespace Orderly

theorem of_append {l l' : List Made} (h : Orderly units (l ++ l')) : Orderly units l := by
  rintro l₁ m l₂ rfl i hi
  exact h l₁ m (l₂ ++ l') (by simp) i hi

theorem concat {l : List Made} (h : Orderly units l)
    (hm : ∀ i, Disturbs units i m.work.number → i ∈ l.map fun m => m.work.number) :
    Orderly units (l ++ [m]) := by
  intro l₁ m' l₂ heq i hi
  rcases List.append_eq_append_iff.1 heq with ⟨l, rfl, hl⟩ | ⟨l, rfl, hl⟩
  · cases l with
    | nil =>
      cases hl
      simpa using hm i hi
    | cons a l => simp at hl
  · cases l with
    | nil =>
      cases hl
      simpa using hm i hi
    | cons a l =>
      cases hl
      exact h l₁ m' l rfl i hi

theorem last {l : List Made} (h : Orderly units (l ++ [m]))
    (hi : Disturbs units i m.work.number) : ∃ m' ∈ l, m'.work.number = i := by
  simpa using h l m [] rfl i hi

end Orderly

theorem mem_since_or {n : Nat} (hn : n ≤ units.length) (hv : v < n) (hu : units[v]? = some unit)
    (hbelow : unit.liesBelow id = true) :
    v ∈ since units id n ∨
      ∃ p < n, v ∈ since units id p ∧ ∃ other, units[p]? = some other ∧ other.id = id := by
  induction n with
  | zero => omega
  | succ n ih =>
    obtain ⟨last, hlast⟩ : ∃ unit, units[n]? = some unit := ⟨_, List.getElem?_eq_getElem hn⟩
    by_cases hvn : v = n
    · refine .inl ((mem_since hn).2 ⟨hv, ⟨unit, hu, hbelow⟩, fun m _ hvm hmn => ?_⟩)
      omega
    · rcases ih (by omega) (by omega) with hmem | ⟨p, hp, hmem, hother⟩
      · by_cases hid : last.id = id
        · exact .inr ⟨n, Nat.lt_succ_self n, hmem, last, hlast, hid⟩
        · left
          simp only [since, hlast, if_neg hid]
          split
          · exact List.mem_append_left _ hmem
          · exact hmem
      · exact .inr ⟨p, Nat.lt_succ_of_lt hp, hmem, hother⟩

theorem depositsFor_pairwise (s : State σ) (id : UnitId) :
    (s.depositsFor id).Pairwise fun a b => a.number ≤ b.number := by
  refine (List.pairwise_mergeSort ?_ ?_ _).imp fun {a b} hab => by
    simpa [Deposit.notAfter] using hab
  · intro a b c hab hbc
    simp only [Deposit.notAfter, decide_eq_true_eq] at hab hbc ⊢
    exact Nat.le_trans hab hbc
  · intro a b
    simpa [Deposit.notAfter] using Nat.le_total a.number b.number

namespace Trace

theorem deposits_nodup (ht : Trace (.start rules options store units) h s) :
    ((s.deposits ++ h.made.flatMap Made.taken).map Deposit.number).Nodup := by
  have hsub : ((h.made.filterMap (Made.deposit? rules)).map Deposit.number).Sublist
      (h.made.map fun m => m.work.number) := by
    induction h.made with
    | nil => simp
    | cons m l ih =>
      cases hd : m.deposit? rules with
      | none =>
        rw [List.filterMap_cons_none hd, List.map_cons]
        exact ih.cons _
      | some d =>
        rw [List.filterMap_cons_some hd, List.map_cons, List.map_cons,
          (deposit_eq_some hd).2.2.1]
        exact ih.cons_cons _
  have hnodup := (ht.deposits_perm.map Deposit.number).nodup_iff.2 (hsub.nodup ht.made_nodup)
  rw [List.map_append] at hnodup
  exact (List.nodup_append.1 hnodup).1

theorem nextOut_le_of_held (ht : Trace (.start rules options store units) h s)
    (hw : s.workers[i]? = some (.holding work)) : s.nextOut ≤ work.number := by
  refine Nat.le_of_not_lt fun hlt => ?_
  obtain ⟨m, hm, hnumber, -⟩ := ht.exists_made_of_out hlt
  exact ht.held_ne_made hw hm hnumber

theorem issuesOf_number (ht : Trace (.start rules options store units) h s)
    (hd : d ∈ s.deposits ∨ ∃ m ∈ h.made, d ∈ m.taken) : h.issuesOf d.number = d.issues := by
  obtain ⟨m, hm, hdep⟩ := ht.deposit_source hd
  obtain ⟨-, -, hnumber, hissues⟩ := deposit_eq_some hdep
  rw [History.issuesOf, hnumber, ht.lookup_numbered hm, hissues]
  rfl

theorem children_eq (ht : Trace (.start rules options store units) h s) (hm : m ∈ h.made) :
    m.children = (m.taken.map Deposit.number).flatMap h.issuesOf := by
  rw [Made.children, List.flatMap_map]
  apply List.flatMap_congr
  intro d hd
  exact (ht.issuesOf_number (.inr ⟨m, hm, hd⟩)).symm

theorem mem_since_of_deposit (ht : Trace (.start rules options store units) h s)
    (hrules : rules.Aggregating)
    (hexact : ∀ m ∈ h.made, rules.collects m.work.unit = true →
      m.taken.map Deposit.number = since units m.work.unit.id m.work.number)
    (hw : s.workers[i]? = some (.holding work)) (hcollects : rules.collects work.unit = true)
    (horderly : Orderly units (h.made ++ [⟨work, taken, report⟩]))
    (hd : d ∈ s.deposits) (howner : d.owner = work.unit.id) :
    d.number ∈ since units work.unit.id work.number := by
  have hhanded := ht.handed_of_held hw
  have hn := Nat.le_of_lt (ht.number_lt_units hhanded)
  obtain ⟨hu, -⟩ := ht.mem_handed hhanded
  have hscope := hrules.collects_package hcollects
  obtain ⟨-, version, hversion, hbelow⟩ := ht.deposit_below hrules (.inl hd)
  rw [howner] at hbelow
  obtain ⟨m, hm, hdep⟩ := ht.deposit_source (.inl hd)
  have hnumber := (deposit_eq_some hdep).2.2.1
  rcases Nat.lt_trichotomy d.number work.number with hlt | heq | hgt
  · rcases mem_since_or hn hlt hversion hbelow with hmem | ⟨p, hp, hmem, other, hother, hid⟩
    · exact hmem
    · -- the package came before, and has taken the deposit
      have hdisturbs : Disturbs units p work.number := by
        refine ⟨hp, other, work.unit, hother, hu, ?_, .inr ⟨hid.symm, ?_⟩⟩
        · exact (ScanUnit.scope_congr hid).trans hscope
        · rw [hid]
          exact List.ne_nil_of_mem hmem
      obtain ⟨m', hm', rfl⟩ := horderly.last hdisturbs
      have hu' := ht.unit_of_made hm'
      rw [hother] at hu'
      cases hu'
      have hscope' := (ScanUnit.scope_congr hid).trans hscope
      rw [← hid, ← hexact m' hm' (hrules.collects_of_scope hcollects hscope')] at hmem
      obtain ⟨d', hd', hnumber'⟩ := List.mem_map.1 hmem
      have hnodup := ht.deposits_nodup
      rw [List.map_append, List.nodup_append] at hnodup
      exact absurd hnumber'.symm (hnodup.2.2 _ (List.mem_map_of_mem hd) _
        (List.mem_map_of_mem (List.mem_flatMap.2 ⟨m', hm', hd'⟩)))
  · rw [hnumber] at heq
    exact absurd heq (ht.held_ne_made hw hm)
  · -- a later version has overtaken the package
    have hdisturbs : Disturbs units work.number m.work.number :=
      ⟨hnumber ▸ hgt, work.unit, version, hu, hnumber ▸ hversion, hscope, .inl hbelow⟩
    obtain ⟨l₁, l₂, hsplit⟩ := List.append_of_mem hm
    have hmem := horderly l₁ m (l₂ ++ [⟨work, taken, report⟩]) (by simp [hsplit]) _ hdisturbs
    obtain ⟨m', hm', hnumber'⟩ := List.mem_map.1 hmem
    have hm'' : m' ∈ h.made := by
      rw [hsplit]
      exact List.mem_append_left _ hm'
    exact absurd hnumber' (ht.held_ne_made hw hm'')

theorem numbers_eq_since (ht : Trace (.start rules options store units) h s)
    (hrules : rules.Aggregating)
    (hexact : ∀ m ∈ h.made, rules.collects m.work.unit = true →
      m.taken.map Deposit.number = since units m.work.unit.id m.work.number)
    (hw : s.workers[i]? = some (.holding work)) (hcollects : rules.collects work.unit = true)
    (hc : s.collect? work = some taken)
    (horderly : Orderly units (h.made ++ [⟨work, taken, report⟩])) :
    taken.map Deposit.number = since units work.unit.id work.number := by
  rcases collect_eq_some hc with ⟨-, htaken, hlength⟩ | ⟨hnot, -⟩
  case inr =>
    rw [ht.rules_eq, hcollects] at hnot
    cases hnot
  have hsub : taken.map Deposit.number ⊆ since units work.unit.id work.number := by
    intro v hv
    obtain ⟨d, hd, rfl⟩ := List.mem_map.1 hv
    rw [htaken] at hd
    obtain ⟨hd, howner⟩ := mem_depositsFor.1 hd
    exact ht.mem_since_of_deposit hrules hexact hw hcollects horderly hd howner
  have hnodup : (taken.map Deposit.number).Nodup := by
    have hdeposits := ht.deposits_nodup
    rw [List.map_append] at hdeposits
    have hdeposits := (List.nodup_append.1 hdeposits).1
    rw [← ((collect_perm hc).map Deposit.number).nodup_iff, List.map_append] at hdeposits
    exact (List.nodup_append.1 hdeposits).1
  -- they are as many, and in the same order
  have hperm : (taken.map Deposit.number).Perm (since units work.unit.id work.number) := by
    apply (List.subperm_of_subset hnodup hsub).perm_of_length_le
    rw [List.length_map, ← ht.children_of_blocked hrules hw hcollects]
    exact hlength
  have hsorted : (taken.map Deposit.number).Pairwise (· ≤ ·) := by
    rw [htaken, List.pairwise_map]
    exact depositsFor_pairwise s work.unit.id
  exact hperm.eq_of_pairwise (fun _ _ _ _ => Nat.le_antisymm) hsorted
    ((since_pairwise units _ _).imp Nat.le_of_lt)

/-- If nothing overtakes, every package is given what was counted for it. -/
theorem taken_eq_since (ht : Trace (.start rules options store units) h s)
    (hrules : rules.Aggregating) : Orderly units h.made →
      ∀ m ∈ h.made, rules.collects m.work.unit = true →
        m.taken.map Deposit.number = since units m.work.unit.id m.work.number := by
  refine ht.invariant (I := fun h _ => Orderly units h.made →
    ∀ m ∈ h.made, rules.collects m.work.unit = true →
      m.taken.map Deposit.number = since units m.work.unit.id m.work.number)
    (by simp [History.empty]) fun {h s p h' t} ht hI hs => ?_
  cases hs
  case make i work taken hw hc =>
    intro horderly m hm hcollects
    have hexact := hI horderly.of_append
    rcases List.mem_append.1 hm with hm | hm
    · exact hexact m hm hcollects
    · rw [List.mem_singleton] at hm
      subst hm
      exact ht.numbers_eq_since hrules hexact hw hcollects hc horderly
  all_goals exact hI

theorem orderly_of_calm (ht : Trace (.start rules options store units) h s)
    (hcalm : Calm options.workers options.window units) : Orderly units h.made := by
  refine ht.invariant (I := fun h _ => Orderly units h.made) ?_ fun {h s p h' t} ht hI hs => ?_
  · intro l₁ m l₂ hempty
    simp [History.empty] at hempty
  cases hs
  case make i work taken hw hc =>
    refine hI.concat fun j hj => ?_
    have hlt := ht.number_lt (ht.handed_of_held hw)
    have hjmem : j ∈ h.handed.map Work.number := by
      rw [ht.map_number_handed, List.mem_range]
      exact Nat.lt_trans hj.1 hlt
    obtain ⟨other, hother, rfl⟩ := List.mem_map.1 hjmem
    rw [← ht.held_perm.mem_iff, List.mem_append, List.mem_filterMap] at hother
    rcases hother with ⟨w, hmem, hheld⟩ | hother
    · -- the earlier unit is still with another worker, so it is not out
      exfalso
      obtain ⟨k, hk⟩ := List.getElem?_of_mem hmem
      cases w <;> cases hheld
      have hki : k ≠ i := by
        rintro rfl
        rw [hw] at hk
        cases hk
        exact Nat.lt_irrefl _ hj.1
      have hworkers := ht.length_workers
      obtain ⟨hk', -⟩ := List.getElem?_eq_some_iff.1 hk
      obtain ⟨hi', -⟩ := List.getElem?_eq_some_iff.1 hw
      rcases hcalm with hone | hcalm
      · omega
      · refine hcalm other.number work.number ?_ hj
        obtain ⟨lost, -, -, hcredits⟩ := ht.credits_eq
        have hout := ht.nextOut_le_of_held hk
        have := ht.length_handed_le
        omega
    · obtain ⟨m, hm, rfl⟩ := List.mem_map.1 hother
      exact List.mem_map_of_mem hm
  all_goals exact hI

theorem unrobbed_of_orderly (ht : Trace (.start rules options store units) h s)
    (hrules : rules.Aggregating) (horderly : Orderly units h.made) : Unrobbed units h s := by
  intro i work hw m hm d hd hv
  have hhanded := ht.handed_of_held hw
  have hhanded' := ht.handed_of_made hm
  have hn := Nat.le_of_lt (ht.number_lt_units hhanded)
  have hn' := Nat.le_of_lt (ht.number_lt_units hhanded')
  obtain ⟨hu, -⟩ := ht.mem_handed hhanded
  obtain ⟨hu', -⟩ := ht.mem_handed hhanded'
  have hcollects := (ht.taken_owner m hm d hd).1
  have hv' : d.number ∈ since units m.work.unit.id m.work.number := by
    rw [← ht.taken_eq_since hrules horderly m hm hcollects]
    exact List.mem_map_of_mem hd
  obtain ⟨hbefore, ⟨version, hversion, hbelow⟩, hbetween⟩ := (mem_since hn).1 hv
  obtain ⟨hbefore', ⟨version', hversion', hbelow'⟩, hbetween'⟩ := (mem_since hn').1 hv'
  have hid : m.work.unit.id = work.unit.id := by
    rw [hversion] at hversion'
    cases hversion'
    exact ScanUnit.liesBelow_unique hbelow' hbelow
  rcases Nat.lt_or_gt_of_ne (ht.held_ne_made hw hm) with hlt | hlt
  · exact hbetween _ _ hbefore' hlt hu' hid
  · exact hbetween' _ _ hbefore hlt hu hid.symm

theorem exact_of_calm (ht : Trace (.start rules options store units) h s)
    (hrules : rules.Aggregating) (hcalm : Calm options.workers options.window units)
    (hm : m ∈ h.made) (hcollects : rules.collects m.work.unit = true) :
    m.taken.map Deposit.number = since units m.work.unit.id m.work.number ∧
      m.children = (since units m.work.unit.id m.work.number).flatMap h.issuesOf := by
  have htaken := ht.taken_eq_since hrules (ht.orderly_of_calm hcalm) m hm hcollects
  refine ⟨htaken, ?_⟩
  rw [← htaken]
  exact ht.children_eq hm

end Trace

end EbuildAudit.Scan
