import EbuildAudit.Proofs.Addon.Filling

namespace EbuildAudit

namespace Query

inductive MayAsk (id : AddonId) : Query α → Prop
  | here {next : Outcome → Query α} : MayAsk id (.ask id next)
  | later {d : AddonId} {next : Outcome → Query α} (o : Outcome) :
    MayAsk id (next o) → MayAsk id (.ask d next)

inductive Puts (ask : AddonId → StateM Store Outcome) : Query α → Store → AddonId → Store → Prop
  | here {s : Store} {d : AddonId} {next : Outcome → Query α} : Puts ask (.ask d next) s d s
  | later {s t : Store} {d e : AddonId} {next : Outcome → Query α} :
    Puts ask (next (ask d s).1) (ask d s).2 e t → Puts ask (.ask d next) s e t

variable {ask : AddonId → StateM Store Outcome} {q : Query α} {s t : Store} {d id : AddonId}
  {ids : List AddonId} {P : Store → Prop}

theorem AsksOnly.mem (hq : q.AsksOnly ids) (h : q.MayAsk id) : id ∈ ids := by
  induction h with
  | here => exact hq.1
  | later o _ ih => exact ih (hq.2 o)

theorem Puts.mayAsk (h : q.Puts ask s d t) : q.MayAsk d := by
  induction h with
  | here => exact .here
  | later _ ih => exact .later _ ih

theorem answer_keeps (hask : ∀ d t, q.Puts ask s d t → P t → P (ask d t).2) (hs : P s) :
    P (q.answer ask s).2 := by
  induction q generalizing s with
  | done a => exact hs
  | ask d next ih =>
    exact ih (ask d s).1 (fun e t h => hask e t (.later h)) (hask d s .here hs)

theorem Puts.keeps (h : q.Puts ask s d t)
    (hask : ∀ d t, q.Puts ask s d t → P t → P (ask d t).2) (hs : P s) : P t := by
  induction h with
  | here => exact hs
  | later _ ih => exact ih (fun d t h => hask d t (.later h)) (hask _ _ .here hs)

theorem Puts.keeps_after (h : q.Puts ask s d t) (hask : ∀ d t, P t → P (ask d t).2)
    (hafter : P (ask d t).2) : P (q.answer ask s).2 := by
  induction h with
  | @here s d next =>
    exact (next (ask d s).1).answer_keeps (fun e t _ => hask e t) hafter
  | later _ ih => exact ih hafter

def dependencies : List AddonId → Query (Option Outcome)
  | [] => .done none
  | d :: ids => .ask d fun o =>
    match Store.blocked? d o with
    | some blocked => .done (some blocked)
    | none => dependencies ids

theorem firstBlocked_eq (ask : AddonId → StateM Store Outcome) (ids : List AddonId) (s : Store) :
    Store.firstBlocked ask ids s = (dependencies ids).answer ask s := by
  induction ids generalizing s with
  | nil => rfl
  | cons d ids ih =>
    rw [Store.firstBlocked_cons, dependencies, answer, bind_apply]
    cases Store.blocked? d (ask d s).1 with
    | some blocked => rfl
    | none => exact ih _

theorem mem_of_mayAsk_dependencies (h : (dependencies ids).MayAsk d) : d ∈ ids := by
  induction ids with
  | nil => cases h
  | cons e ids ih =>
    cases h with
    | here => exact List.mem_cons_self
    | later o h =>
      cases hblocked : Store.blocked? e o with
      | some blocked =>
        simp only [hblocked] at h
        cases h
      | none =>
        simp only [hblocked] at h
        exact List.mem_cons_of_mem e (ih h)

end Query

namespace Store

structure Grown (s t : Store) : Prop where
  frame : { t with
    files := s.files, identity := s.identity, slots := s.slots, calls := s.calls } = s
  kept {k : AddonId} {v : Slot} : s.slots.lookup k = some v → t.slots.lookup k = some v
  filling {k : AddonId} : t.slots.lookup k = some .filling → s.slots.lookup k = some .filling

def Remembers (s t : Store) : Prop :=
  ∀ ⦃k o⦄, s.slots.lookup k = some (.full o) → t.slots.lookup k = some (.full o)

variable {s t u : Store} {ask : AddonId → StateM Store Outcome} {id : AddonId} {addon : Addon}
  {k : AddonId} {v : Slot}

namespace Grown

theorem refl (s : Store) : Grown s s :=
  ⟨rfl, id, id⟩

theorem trans (hst : Grown s t) (htu : Grown t u) : Grown s u where
  frame := (congrArg (fun t => { t with
    files := s.files, identity := s.identity, slots := s.slots, calls := s.calls }) htu.frame).trans
      hst.frame
  kept h := htu.kept (hst.kept h)
  filling h := hst.filling (htu.filling h)

theorem aside (s : Store) (files : FileTree) (identity : Option String)
    (calls : List (AddonId × Nat)) : Grown s { s with files, identity, calls } :=
  ⟨rfl, id, id⟩

theorem addons_eq (h : Grown s t) : t.addons = s.addons := by
  have haddons := congrArg Store.addons h.frame
  exact haddons

theorem cache_eq (h : Grown s t) : t.cache = s.cache := by
  have hcache := congrArg Store.cache h.frame
  exact hcache

theorem remembers (h : Grown s t) : Remembers s t :=
  fun _ _ => h.kept

theorem filled (h : Grown (s.setSlot id .filling) t) (hnew : s.slots.lookup id = none)
    (o : Outcome) : Grown s (t.setSlot id (.full o)) where
  frame := congrArg (fun t => { t with slots := s.slots }) h.frame
  kept {k v} hk := by
    have hne : k ≠ id := by
      rintro rfl
      cases hnew.symm.trans hk
    rw [lookup_setSlot_of_ne _ _ hne]
    exact h.kept (by rwa [lookup_setSlot_of_ne _ _ hne])
  filling {k} hk := by
    have hne : k ≠ id := by
      rintro rfl
      rw [lookup_setSlot_self] at hk
      cases hk
    rw [lookup_setSlot_of_ne _ _ hne] at hk
    have hfilling := h.filling hk
    rwa [lookup_setSlot_of_ne _ _ hne] at hfilling

theorem firstBlocked (hask : ∀ d t, Grown t (ask d t).2) (ids : List AddonId) (s : Store) :
    Grown s (firstBlocked ask ids s).2 := by
  rw [Query.firstBlocked_eq]
  exact Query.answer_keeps (fun d t _ h => h.trans (hask d t)) (.refl s)

end Grown

structure Indifferent (P : Store → Prop) : Prop where
  computing {s : Store} (addon : Addon) : P s → P (s.computing addon)
  aside {s : Store} (files : FileTree) (identity : Option String) :
    P s → P { s with files, identity }

namespace Indifferent

variable {P : Store → Prop}

theorem grown (s : Store) : Indifferent (Grown s) where
  computing {t} _ h := h.trans (.aside t t.files t.identity _)
  aside {t} files identity h := h.trans (.aside t files identity t.calls)

theorem cacheKey? (hP : Indifferent P) (addon : Addon) (hs : P s) :
    P (cacheKey? addon s).2 := by
  obtain ⟨identity, h⟩ := exists_cacheKey? addon s
  rw [h]
  exact hP.aside s.files identity hs

theorem kept (hP : Indifferent P) (addon : Addon) (place : Option (Cache × CacheKey))
    (result : Except AddonStop AddonValue) (hs : P s) : P (kept addon place s result) := by
  obtain ⟨files, h⟩ := exists_kept addon place s result
  rw [h]
  exact hP.aside files s.identity hs

end Indifferent

theorem Remembers.setSlot (h : s.slots.lookup id = some .filling ∨ s.slots.lookup id = none) :
    Remembers s (s.setSlot id v) := by
  intro k o hk
  by_cases hne : k = id
  · subst hne
    rcases h with h | h <;> rw [h] at hk <;> cases hk
  · rwa [lookup_setSlot_of_ne _ _ hne]

end Store

end EbuildAudit
