import EbuildAudit.Proofs.Addon.Agreement
import EbuildAudit.Proofs.Registry.Planning
import Mathlib

namespace EbuildAudit

namespace Store

/-- The stores that are left when addons of a list are asked for, and any are dropped. -/
inductive Served (ids : List AddonId) (s : Store) : Store → Prop
  | refl : Served ids s s
  | ask {t : Store} {id : AddonId} : id ∈ ids → Served ids s t → Served ids s (outcome id t).2
  | drop {t : Store} (id : AddonId) : Served ids s t → Served ids s (t.invalidate id)

/-- All addons that have been asked for, by a check or by another addon, are there. -/
def Resolved (t : Store) : Prop :=
  ∀ id, t.slots.lookup id ≠ none → t.addons.lookup id ≠ none

variable {s t : Store} {addons : List (AddonId × Addon)} {known : AddonId → Prop}
  {ids : List AddonId} {id : AddonId} {fuel : Nat}

theorem Within.invalidate (id : AddonId) (h : Within addons known t t) :
    Within addons known (t.invalidate id) (t.invalidate id) := by
  refine ⟨rfl, h.addons, fun k hk => h.slots k ?_⟩
  by_cases hne : k = id
  · rw [hne, Store.invalidate, lookup_filter_self] at hk
    exact absurd rfl hk
  · rwa [Store.invalidate, lookup_filter_of_ne hne] at hk

theorem Within.served (hask : ∀ id ∈ ids, Agree (Within addons known) (fun _ => True)
    (outcome id) (outcome id)) (hs : Within addons known s s) (h : Served ids s t) :
    Within addons known t t := by
  induction h with
  | refl => exact hs
  | ask hid _ ih => exact (hask _ hid _ _ ih).2.2
  | drop id _ ih => exact ih.invalidate id

end Store

namespace Registry

variable {r : Registry} {s : Selection} {p : Plan} {checks : List Check} {addons : List Addon}
  {addon : Addon} {id d : AddonId}

theorem mem_required : id ∈ p.required ↔ ∃ c ∈ p.checks, id ∈ c.requiredAddons := by
  simp [Plan.required]

theorem mem_plan_addons (h : r.plan s = .ok p) :
    id ∈ p.addons ↔ ∃ c ∈ p.checks, ∃ start ∈ c.requiredAddons, r.Reaches start id := by
  rw [mem_addonOrder (plan_eq_ok_iff.1 h).2.2]
  simp only [mem_required]
  tauto

theorem plan_ordered (h : r.plan s = .ok p) : r.Ordered p.addons :=
  addonOrder_ordered (plan_eq_ok_iff.1 h).2.2

theorem exists_lookup_of_knows (h : r.knows id) : ∃ addon, r.addons.lookup id = some addon := by
  rw [← Option.ne_none_iff_exists']
  exact fun hnone => not_mem_of_lookup hnone (knows_iff.1 h)

theorem Valid.knows_of_dependsOn (hr : r.Valid) (h : r.DependsOn id d) : r.knows d := by
  cases hid : r.addons.lookup id with
  | none =>
    rw [DependsOn, dependenciesOf_of_unknown hid] at h
    cases h
  | some addon =>
    rw [DependsOn, dependenciesOf_of_lookup hid] at h
    exact hr.dependencies id addon (mem_of_lookup hid) d h

theorem Valid.exists_lookup (hr : r.Valid) (h : r.plan s = .ok p) (hid : id ∈ p.addons) :
    ∃ addon, r.addons.lookup id = some addon := by
  obtain ⟨c, hc, start, hstart, hreach⟩ := (mem_plan_addons h).1 hid
  have hchecks := (plan_eq_ok_iff.1 h).2.1
  have hknown : r.knows id := by
    cases hreach with
    | refl =>
      exact hr.requirements c ((plannedChecks_sublist r s).subset (hchecks ▸ hc)) _ hstart
    | tail _ hstep => exact hr.knows_of_dependsOn hstep
  exact exists_lookup_of_knows hknown

theorem id_of_lookup (hr : new checks addons = .ok r) (h : r.addons.lookup id = some addon) :
    addon.id = id := by
  cases (new_eq_ok_iff.1 hr).1
  exact Addon.id_of_last? (Addon.lookup_byId addons id ▸ h)

theorem last?_addonsFor (hr : new checks addons = .ok r) (p : Plan) (id : AddonId) :
    Addon.last? (r.addonsFor p) id = if id ∈ p.addons then r.addons.lookup id else none := by
  rw [Addon.last?, addonsFor]
  induction p.addons using List.reverseRecOn with
  | nil => rfl
  | append_singleton ids last ih =>
    rw [List.filterMap_append, List.reverse_append]
    cases hlast : r.addons.lookup last with
    | none =>
      simp only [List.filterMap_cons, hlast, List.filterMap_nil]
      by_cases hid : id = last
      · rw [hid, hlast, ite_self] at ih ⊢
        exact ih
      · simpa [hid] using ih
    | some addon =>
      have heq := id_of_lookup hr hlast
      simp only [List.filterMap_cons, hlast, List.filterMap_nil]
      by_cases hid : id = last
      · simp [hid, heq, hlast]
      · simpa [heq, hid, Ne.symm hid] using ih

theorem Valid.length_le (hr : r.Valid) (hnew : new checks addons = .ok r) (h : r.plan s = .ok p) :
    p.addons.length ≤ (Addon.byId (r.addonsFor p)).length := by
  have hsub : p.addons ⊆ (Addon.byId (r.addonsFor p)).map (·.1) := by
    intro id hid
    obtain ⟨addon, haddon⟩ := hr.exists_lookup h hid
    have hmem : (id, addon) ∈ Addon.byId (r.addonsFor p) := by
      rw [Addon.mem_byId, last?_addonsFor hnew, if_pos hid, haddon]
    exact List.mem_map_of_mem hmem
  simpa using (List.subperm_of_subset (plan_ordered h).nodup hsub).length_le

theorem descending_addonsFor (hr : new checks addons = .ok r) (h : r.plan s = .ok p)
    (hasks : ∀ addon ∈ r.addonsFor p, ∀ around, (addon.compute around).AsksOnly addon.dependsOn) :
    Store.Descending (Addon.byId (r.addonsFor p)) fun id => p.addons.idxOf id where
  below {id addon} haddon d hd := by
    rw [Addon.lookup_byId, last?_addonsFor hr] at haddon
    split at haddon
    case isTrue hid => exact (plan_ordered h).idxOf_lt hid (dependsOn_of_lookup haddon hd)
    case isFalse => cases haddon
  asks {id addon} haddon := by
    rw [Addon.lookup_byId] at haddon
    exact hasks addon (Addon.mem_of_last? haddon)

theorem agree_addonsFor (hr : new checks addons = .ok r) (h : r.plan s = .ok p)
    (hasks : ∀ addon ∈ r.addonsFor p, ∀ around, (addon.compute around).AsksOnly addon.dependsOn)
    (hid : id ∈ p.addons) {m n : Nat} (hm : p.addons.length ≤ m) (hn : p.addons.length ≤ n) :
    Store.Agree (Store.Within (Addon.byId (r.addonsFor p)) (· ∈ p.addons)) (fun _ => True)
      (Store.getWithin m id) (Store.getWithin n id) := by
  have hrank := List.idxOf_lt_length_of_mem hid
  refine Store.Within.getWithin (descending_addonsFor hr h hasks) (fun k hk => ?_) hid
    (by omega) (by omega)
  obtain ⟨addon, haddon⟩ := (new_eq_ok_iff.1 hr).2.exists_lookup h hk
  refine ⟨addon, ?_, fun d hd => ?_⟩
  · rw [Addon.lookup_byId, last?_addonsFor hr, if_pos hk, haddon]
  · exact (plan_ordered h).mem_of_dependsOn hk (dependsOn_of_lookup haddon hd)

/--
A plan brings the addons that its checks need, each once and after those it depends on. A store of
these is never asked for another one, and the bound on nested questions never counts.
-/
theorem plan_closed (checks : List Check) (addons : List Addon) (r : Registry)
    (hr : new checks addons = .ok r) (s : Selection) :
    (∀ path, r.plan s ≠ .error (.addonCycle path)) ∧
    ∀ p, r.plan s = .ok p →
      p.addons.Nodup ∧
      (∀ id, id ∈ p.addons ↔ ∃ c ∈ p.checks, ∃ start ∈ c.requiredAddons, r.Reaches start id) ∧
      (∀ before id after, p.addons = before ++ id :: after → ∀ d, r.DependsOn id d → d ∈ before) ∧
      ((∀ addon ∈ r.addonsFor p, ∀ around, (addon.compute around).AsksOnly addon.dependsOn) →
        ∀ files root settings load cache t,
          Store.Served p.required (.new (r.addonsFor p) files root settings load cache) t →
          t.Resolved ∧ ∀ id ∈ p.required, ∀ n, t.addons.length + 2 ≤ n →
            Store.getWithin n id t = Store.outcome id t) := by
  have hvalid := (new_eq_ok_iff.1 hr).2
  refine ⟨fun path hplan => ?_, fun p hp => ?_⟩
  · rcases error_of_plan hvalid.acyclic hplan with ⟨token, -, h⟩ | ⟨-, h⟩ <;> cases h
  have hordered := plan_ordered hp
  refine ⟨hordered.nodup, fun id => mem_plan_addons hp, fun before id after h d hd =>
    hordered.mem_before h d hd, fun hasks files root settings load cache t ht => ?_⟩
  have hlength := hvalid.length_le hr hp
  have hrequired : p.required ⊆ p.addons :=
    (addonOrder_extends (plan_eq_ok_iff.1 hp).2.2).adds
  have hask (id : AddonId) (hid : id ∈ p.required) {m n : Nat} (hm : p.addons.length ≤ m)
      (hn : p.addons.length ≤ n) := agree_addonsFor hr hp hasks (hrequired hid) hm hn
  have hstart : Store.Within (Addon.byId (r.addonsFor p)) (· ∈ p.addons)
      (.new (r.addonsFor p) files root settings load cache)
      (.new (r.addonsFor p) files root settings load cache) :=
    ⟨rfl, rfl, fun id hid => absurd rfl hid⟩
  have hwithin : Store.Within (Addon.byId (r.addonsFor p)) (· ∈ p.addons) t t := by
    refine Store.Within.served (fun id hid => ?_) hstart ht
    rintro s t ⟨rfl, haddons, hslots⟩
    refine hask id hid ?_ ?_ s s ⟨rfl, haddons, hslots⟩ <;> rw [haddons] <;> omega
  refine ⟨fun id hslot => ?_, fun id hid n hn => ?_⟩
  · obtain ⟨addon, haddon⟩ := hvalid.exists_lookup hp (hwithin.slots id hslot)
    rw [hwithin.addons, Addon.lookup_byId, last?_addonsFor hr, if_pos (hwithin.slots id hslot),
      haddon]
    exact Option.some_ne_none addon
  · have hlast : p.addons.length ≤ t.addons.length + 2 := by rw [hwithin.addons]; omega
    obtain ⟨hvalue, -, hstores⟩ := hask id hid (hlast.trans hn) hlast t t hwithin
    exact Prod.ext hvalue hstores.eq

def demanding (addons : List AddonId) : Check where
  name := "Demanding"
  category := "demand"
  scope := .version
  requiredAddons := addons
  knownKinds := []
  run _ := return []

theorem plan_closed_chain :
    let addons : List Addon := [.constant "a" ["b"] 1, .constant "b" [] 0, .constant "c" [] 0]
    let r : Registry := ⟨[demanding ["a"]], Addon.byId addons⟩
    let p : Plan := ⟨[demanding ["a"]], ["b", "a"]⟩
    let s : Store := .new (r.addonsFor p) .empty "" ⟨false, none⟩ .ebuilds none
    new [demanding ["a"]] addons = .ok r ∧ r.plan ⟨[], []⟩ = .ok p ∧ p.addons.Nodup ∧
      (Store.outcome "a" s).2.Resolved := by
  intro addons r p s
  have hr : new [demanding ["a"]] addons = .ok r := by cbv
  have hp : r.plan ⟨[], []⟩ = .ok p := by cbv
  obtain ⟨-, hplan⟩ := plan_closed [demanding ["a"]] addons r hr ⟨[], []⟩
  obtain ⟨hnodup, -, -, hstore⟩ := hplan p hp
  have hasks : ∀ addon ∈ r.addonsFor p, ∀ around,
      (addon.compute around).AsksOnly addon.dependsOn := by
    have haddons : r.addonsFor p = [.constant "b" [] 0, .constant "a" ["b"] 1] := by cbv
    rw [haddons]
    simp only [List.mem_cons, List.not_mem_nil, or_false]
    rintro addon (rfl | rfl) around <;> exact trivial
  exact ⟨hr, hp, hnodup, (hstore hasks _ _ _ _ _ _ (.ask (by decide) .refl)).1⟩

end Registry

end EbuildAudit
