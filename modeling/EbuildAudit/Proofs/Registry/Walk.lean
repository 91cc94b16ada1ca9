import EbuildAudit.Registry
import Mathlib.Data.List.Chain

/-!
The walk over the addons: it comes back with an order in which each addon stands after those it
depends on, or with addons that depend on each other in turn. The second happens only if there are
such addons, and the first only if there are none.
-/

namespace EbuildAudit.Registry

def DependsOn (r : Registry) (id dependency : AddonId) : Prop :=
  dependency ∈ r.dependenciesOf id

abbrev Reaches (r : Registry) : AddonId → AddonId → Prop :=
  Relation.ReflTransGen r.DependsOn

def Acyclic (r : Registry) : Prop :=
  ∀ id, ¬Relation.TransGen r.DependsOn id id

inductive Ordered (r : Registry) : List AddonId → Prop
  | nil : Ordered r []
  | concat {ids : List AddonId} {id : AddonId} : Ordered r ids → id ∉ ids →
      (∀ d ∈ r.dependenciesOf id, d ∈ ids) → Ordered r (ids ++ [id])

/-- A way along dependencies that ends where it starts. -/
structure IsCycle (r : Registry) (path : List AddonId) : Prop where
  two_le_length : 2 ≤ path.length
  head_eq_last : path.head? = path.getLast?
  chain : path.IsChain r.DependsOn

structure Extends (r : Registry) (path order ids order' : List AddonId) : Prop where
  keeps : order ⊆ order'
  adds : ids ⊆ order'
  ordered : r.Ordered order → r.Ordered order'
  reached : ∀ id ∈ order', id ∈ order ∨ ∃ start ∈ ids, r.Reaches start id
  avoids : ∀ id ∈ path, id ∈ order' → id ∈ order

variable {r : Registry} {path order order' ids : List AddonId} {id d : AddonId} {addon : Addon}
  {e : PlanError}

theorem dependenciesOf_of_lookup (h : r.addons.lookup id = some addon) :
    r.dependenciesOf id = addon.dependsOn := by
  simp [dependenciesOf, h]

theorem dependenciesOf_of_unknown (h : r.addons.lookup id = none) : r.dependenciesOf id = [] := by
  simp [dependenciesOf, h]

theorem dependsOn_of_lookup (h : r.addons.lookup id = some addon) (hd : d ∈ addon.dependsOn) :
    r.DependsOn id d := by
  rwa [DependsOn, dependenciesOf_of_lookup h]

namespace Ordered

theorem nodup (h : r.Ordered ids) : ids.Nodup := by
  induction h with
  | nil => exact List.nodup_nil
  | concat _ hid _ ih =>
    rw [List.nodup_append]
    refine ⟨ih, by simp, fun a ha b hb => ?_⟩
    cases List.mem_singleton.1 hb
    exact ne_of_mem_of_not_mem ha hid

theorem mem_before {before after : List AddonId} (h : r.Ordered ids)
    (hids : ids = before ++ id :: after) : ∀ d ∈ r.dependenciesOf id, d ∈ before := by
  induction h generalizing after with
  | nil => simp at hids
  | concat h hid hdeps ih =>
    rcases List.eq_nil_or_concat' after with rfl | ⟨after, last, rfl⟩
    · obtain ⟨rfl, hlast⟩ := List.append_inj' hids rfl
      cases hlast
      exact hdeps
    · rw [← List.cons_append, ← List.append_assoc] at hids
      exact ih (List.append_inj' hids rfl).1

theorem mem_of_dependsOn (h : r.Ordered ids) (hid : id ∈ ids) (hd : r.DependsOn id d) :
    d ∈ ids := by
  obtain ⟨before, after, hids⟩ := List.append_of_mem hid
  rw [hids]
  exact List.mem_append_left _ (h.mem_before hids d hd)

theorem mem_of_reaches (h : r.Ordered ids) (hid : id ∈ ids) (hd : r.Reaches id d) : d ∈ ids := by
  induction hd with
  | refl => exact hid
  | tail _ hstep ih => exact h.mem_of_dependsOn ih hstep

theorem idxOf_lt (h : r.Ordered ids) (hid : id ∈ ids) (hd : r.DependsOn id d) :
    ids.idxOf d < ids.idxOf id := by
  obtain ⟨before, after, hids⟩ := List.append_of_mem hid
  have hbefore := h.mem_before hids d hd
  have hnot : id ∉ before := by
    have hnodup := h.nodup
    rw [hids] at hnodup
    exact fun hmem => (List.nodup_append.1 hnodup).2.2 id hmem id List.mem_cons_self rfl
  rw [hids, List.idxOf_append_of_mem hbefore, List.idxOf_append_of_notMem hnot,
    List.idxOf_cons_self]
  exact List.idxOf_lt_length_of_mem hbefore

theorem acyclic (h : r.Ordered ids) (hall : ∀ id, r.addons.lookup id ≠ none → id ∈ ids) :
    r.Acyclic := by
  have hmem {a b : AddonId} (hab : r.DependsOn a b) : a ∈ ids := by
    apply hall
    intro hnone
    rw [DependsOn, dependenciesOf_of_unknown hnone] at hab
    cases hab
  have hlt {a b : AddonId} (hab : Relation.TransGen r.DependsOn a b) :
      ids.idxOf b < ids.idxOf a := by
    induction hab with
    | single hstep => exact h.idxOf_lt (hmem hstep) hstep
    | tail _ hstep ih => exact Nat.lt_trans (h.idxOf_lt (hmem hstep) hstep) ih
  exact fun id hid => Nat.lt_irrefl _ (hlt hid)

end Ordered

theorem IsCycle.not_acyclic (h : r.IsCycle path) : ¬r.Acyclic := by
  obtain ⟨hlength, hends, hchain⟩ := h
  cases path with
  | nil => simp at hlength
  | cons a path =>
    cases path with
    | nil => simp at hlength
    | cons b path =>
      obtain ⟨hab, hchain⟩ := List.isChain_cons_cons.1 hchain
      have hlast : (b :: path).getLast (List.cons_ne_nil _ _) = a := by
        simpa [List.getLast?_eq_some_getLast] using hends.symm
      have hback := List.relationReflTransGen_of_exists_isChain_cons path hchain hlast
      exact fun hacyclic => hacyclic a (.head' hab hback)

theorem isCycle_of_mem (hchain : (path ++ [id]).IsChain r.DependsOn) (hid : id ∈ path) :
    r.IsCycle (path.dropWhile (· != id) ++ [id]) := by
  obtain ⟨before, after, rfl, hbefore⟩ := List.eq_append_cons_of_mem hid
  have hdrop : (before ++ id :: after).dropWhile (· != id) = id :: after := by
    rw [List.dropWhile_append_of_pos, List.dropWhile_cons_of_neg (by simp)]
    intro a ha
    simpa using ne_of_mem_of_not_mem ha hbefore
  rw [hdrop]
  rw [List.append_assoc] at hchain
  refine ⟨by simp, ?_, hchain.right_of_append⟩
  rw [List.getLast?_concat]
  rfl

theorem visit_of_mem (horder : id ∈ order) : r.visit path order id = .ok order := by
  rw [visit, if_pos (by simpa using horder)]

theorem visit_of_mem_path (horder : id ∉ order) (hpath : id ∈ path) :
    r.visit path order id = .error (.addonCycle (path.dropWhile (· != id) ++ [id])) := by
  rw [visit, if_neg (by simpa using horder), dif_pos (by simpa using hpath)]

theorem visit_of_unknown (horder : id ∉ order) (hpath : id ∉ path)
    (hid : r.addons.lookup id = none) : r.visit path order id = .ok (order ++ [id]) := by
  rw [visit, if_neg (by simpa using horder), dif_neg (by simpa using hpath)]
  split
  · rfl
  · rename_i h
    rw [hid] at h
    cases h

theorem visit_of_lookup (horder : id ∉ order) (hpath : id ∉ path)
    (hid : r.addons.lookup id = some addon) : r.visit path order id =
      (r.visitAll (path ++ [id]) order addon.dependsOn).map (· ++ [id]) := by
  rw [visit, if_neg (by simpa using horder), dif_neg (by simpa using hpath)]
  split
  · rename_i h
    rw [hid] at h
    cases h
  · rename_i h
    rw [hid] at h
    cases h
    cases r.visitAll (path ++ [id]) order addon.dependsOn <;> rfl

theorem visitAll_cons : r.visitAll path order (id :: ids) =
    (r.visit path order id).bind fun order => r.visitAll path order ids := by
  rw [visitAll]
  rfl

namespace Extends

theorem refl (h : ids ⊆ order) : r.Extends path order ids order :=
  ⟨fun _ h => h, h, fun h => h, fun _ h => .inl h, fun _ _ h => h⟩

theorem trans {order'' : List AddonId} (h : r.Extends path order [id] order')
    (h' : r.Extends path order' ids order'') : r.Extends path order (id :: ids) order'' where
  keeps := fun _ ha => h'.keeps (h.keeps ha)
  adds := List.cons_subset.2 ⟨h'.keeps (h.adds List.mem_cons_self), h'.adds⟩
  ordered hordered := h'.ordered (h.ordered hordered)
  reached a ha := by
    rcases h'.reached a ha with ha | ⟨start, hstart, hreach⟩
    · rcases h.reached a ha with ha | ⟨start, hstart, hreach⟩
      · exact .inl ha
      · exact .inr ⟨start, List.mem_cons.2 (.inl (List.mem_singleton.1 hstart)), hreach⟩
    · exact .inr ⟨start, List.mem_cons_of_mem _ hstart, hreach⟩
  avoids a hpath ha := h.avoids a hpath (h'.avoids a hpath ha)

theorem concat (h : r.Extends (path ++ [id]) order (r.dependenciesOf id) order')
    (horder : id ∉ order) (hpath : id ∉ path) : r.Extends path order [id] (order' ++ [id]) where
  keeps := fun _ ha => List.mem_append_left _ (h.keeps ha)
  adds := List.subset_append_right _ _
  ordered hordered :=
    .concat (h.ordered hordered) (fun hid => horder (h.avoids id (by simp) hid)) h.adds
  reached a ha := by
    rcases List.mem_append.1 ha with ha | ha
    · rcases h.reached a ha with ha | ⟨start, hstart, hreach⟩
      · exact .inl ha
      · exact .inr ⟨id, List.mem_cons_self, .head hstart hreach⟩
    · cases List.mem_singleton.1 ha
      exact .inr ⟨id, List.mem_cons_self, .refl⟩
  avoids a ha hmem := by
    rcases List.mem_append.1 hmem with hmem | hmem
    · exact h.avoids a (List.mem_append_left _ ha) hmem
    · cases List.mem_singleton.1 hmem
      exact absurd ha hpath

end Extends

def Ends (r : Registry) (path order ids : List AddonId) : Except PlanError (List AddonId) → Prop
  | .ok order' => r.Extends path order ids order'
  | .error e => (∀ id ∈ ids, (path ++ [id]).IsChain r.DependsOn) →
      ∃ cycle, e = .addonCycle cycle ∧ r.IsCycle cycle

theorem walk_ends (r : Registry) :
    (∀ path order id, r.Ends path order [id] (r.visit path order id)) ∧
      ∀ path order ids, r.Ends path order ids (r.visitAll path order ids) := by
  apply visit.mutual_induct
  case case1 =>
    intro path order id horder
    have horder : id ∈ order := by simpa using horder
    rw [visit_of_mem horder]
    exact .refl (by simpa using horder)
  case case2 =>
    -- The addon is on the path to itself, so the path closes to a cycle.
    intro path order id horder hpath
    have hpath : id ∈ path := by simpa using hpath
    rw [visit_of_mem_path (by simpa using horder) hpath]
    exact fun hchain => ⟨_, rfl, isCycle_of_mem (hchain id List.mem_cons_self) hpath⟩
  case case3 =>
    intro path order id horder hpath hid
    have horder : id ∉ order := by simpa using horder
    have hpath : id ∉ path := by simpa using hpath
    rw [visit_of_unknown horder hpath hid]
    apply Extends.concat _ horder hpath
    exact .refl (by simp [dependenciesOf_of_unknown hid])
  case case4 =>
    -- What it depends on is walked first, on a path that is longer by this addon.
    intro path order id horder hpath addon hid ih
    have horder : id ∉ order := by simpa using horder
    have hpath : id ∉ path := by simpa using hpath
    rw [visit_of_lookup horder hpath hid]
    cases hwalk : r.visitAll (path ++ [id]) order addon.dependsOn with
    | ok order' =>
      rw [hwalk, ← dependenciesOf_of_lookup hid] at ih
      exact ih.concat horder hpath
    | error e =>
      rw [hwalk] at ih
      intro hchain
      apply ih
      intro d hd
      rw [List.append_assoc, List.singleton_append, List.isChain_append_cons_cons]
      exact ⟨hchain id List.mem_cons_self, dependsOn_of_lookup hid hd, List.isChain_singleton _⟩
  case case5 =>
    intro path order
    rw [visitAll]
    exact .refl (List.nil_subset _)
  case case6 =>
    intro path order id ids ihVisit ihAll
    rw [visitAll_cons]
    cases hvisit : r.visit path order id with
    | error e =>
      rw [hvisit] at ihVisit
      intro hchain
      exact ihVisit (by simpa using hchain id List.mem_cons_self)
    | ok order' =>
      rw [hvisit] at ihVisit
      have hall := ihAll order'
      simp only [Except.bind]
      cases hwalk : r.visitAll path order' ids with
      | ok order'' =>
        rw [hwalk] at hall
        exact ihVisit.trans hall
      | error e =>
        rw [hwalk] at hall
        exact fun hchain => hall fun a ha => hchain a (List.mem_cons_of_mem _ ha)

theorem addonOrder_error (h : r.addonOrder ids = .error e) :
    ∃ cycle, e = .addonCycle cycle ∧ r.IsCycle cycle := by
  have hends := r.walk_ends.2 [] [] ids
  rw [addonOrder] at h
  rw [h] at hends
  exact hends fun id _ => List.isChain_singleton _

theorem addonOrder_extends (h : r.addonOrder ids = .ok order) : r.Extends [] [] ids order := by
  have hends := r.walk_ends.2 [] [] ids
  rw [addonOrder] at h
  rwa [h] at hends

theorem addonOrder_ordered (h : r.addonOrder ids = .ok order) : r.Ordered order :=
  (addonOrder_extends h).ordered .nil

theorem mem_addonOrder (h : r.addonOrder ids = .ok order) :
    id ∈ order ↔ ∃ start ∈ ids, r.Reaches start id := by
  have hextends := addonOrder_extends h
  constructor
  · intro hid
    exact (hextends.reached id hid).resolve_left List.not_mem_nil
  · rintro ⟨start, hstart, hreach⟩
    exact (addonOrder_ordered h).mem_of_reaches (hextends.adds hstart) hreach

theorem exists_addonOrder (h : r.Acyclic) (ids : List AddonId) :
    ∃ order, r.addonOrder ids = .ok order := by
  cases horder : r.addonOrder ids with
  | ok order => exact ⟨order, rfl⟩
  | error e =>
    obtain ⟨cycle, -, hcycle⟩ := addonOrder_error horder
    exact absurd h hcycle.not_acyclic

end EbuildAudit.Registry
