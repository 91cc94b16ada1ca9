import EbuildAudit.Proofs.Addon.Question
import EbuildAudit.Proofs.Registry.Validation

namespace EbuildAudit

namespace Store

structure Tidy (s : Store) : Prop where
  calls : Ascending.Sorted s.calls
  names {id : AddonId} {addon : Addon} : s.addons.lookup id = some addon → addon.id = id

/-- How often an addon will have been computed at most, as long as it is not dropped. -/
def allowance (s : Store) (id : AddonId) : Nat :=
  s.callsOf id + if s.slots.lookup id = none then 1 else 0

def Spent (s t : Store) : Prop :=
  ∀ id, s.callsOf id ≤ t.callsOf id ∧ t.allowance id ≤ s.allowance id

variable {s t u : Store} {id k : AddonId} {addon : Addon} {o : Outcome} {v : Slot}

theorem callsOf_computing (h : s.Tidy) (addon : Addon) (k : AddonId) :
    (s.computing addon).callsOf k = s.callsOf k + if k = addon.id then 1 else 0 := by
  rw [callsOf, callsOf, computing, Ascending.lookup_modify _ _ _ h.calls]
  by_cases hk : k = addon.id
  · simp [hk]
  · simp [hk]

theorem allowance_computing (h : s.Tidy) (addon : Addon) (k : AddonId) :
    (s.computing addon).allowance k = s.allowance k + if k = addon.id then 1 else 0 := by
  rw [allowance, allowance, callsOf_computing h, Nat.add_right_comm]
  rfl

theorem callsOf_le_allowance (s : Store) (id : AddonId) : s.callsOf id ≤ s.allowance id :=
  Nat.le_add_right _ _

theorem allowance_of_new (h : s.slots.lookup id = none) : s.allowance id = s.callsOf id + 1 := by
  rw [allowance, if_pos h]

theorem allowance_of_slot (h : s.slots.lookup id = some v) : s.allowance id = s.callsOf id := by
  rw [allowance, h, if_neg (Option.some_ne_none v), Nat.add_zero]

theorem allowance_setSlot_self (s : Store) (id : AddonId) (v : Slot) :
    (s.setSlot id v).allowance id = s.callsOf id :=
  allowance_of_slot (lookup_setSlot_self s id v)

theorem allowance_setSlot_of_ne (s : Store) (v : Slot) (h : k ≠ id) :
    (s.setSlot id v).allowance k = s.allowance k := by
  rw [allowance, lookup_setSlot_of_ne _ _ h]
  rfl

namespace Tidy

theorem indifferent : Indifferent Tidy where
  computing _ h := ⟨Ascending.modify_sorted h.calls, h.names⟩
  aside _ _ h := ⟨h.calls, h.names⟩

theorem setSlot (h : s.Tidy) : (s.setSlot id v).Tidy :=
  ⟨h.calls, h.names⟩

end Tidy

namespace Spent

theorem refl (s : Store) : Spent s s :=
  fun _ => ⟨Nat.le_refl _, Nat.le_refl _⟩

theorem trans (hst : Spent s t) (htu : Spent t u) : Spent s u :=
  fun id => ⟨(hst id).1.trans (htu id).1, (htu id).2.trans (hst id).2⟩

theorem cacheKey? (h : Spent s t) (addon : Addon) : Spent s (cacheKey? addon t).2 := by
  obtain ⟨identity, ht⟩ := exists_cacheKey? addon t
  rw [ht]
  exact h

theorem kept (h : Spent s t) (addon : Addon) (place : Option (Cache × CacheKey))
    (result : Except AddonStop AddonValue) : Spent s (kept addon place t result) := by
  obtain ⟨files, ht⟩ := exists_kept addon place t result
  rw [ht]
  exact h

theorem callsOf_eq (h : Spent s t) (hslot : s.slots.lookup id = some v) :
    t.callsOf id = s.callsOf id := by
  refine Nat.le_antisymm ?_ (h id).1
  rw [← allowance_of_slot hslot]
  exact (callsOf_le_allowance t id).trans (h id).2

theorem callsOf_filled (h : Spent (s.setSlot id .filling) t) : t.callsOf id = s.callsOf id :=
  h.callsOf_eq (lookup_setSlot_self s id .filling)

theorem filled (h : Spent (s.setSlot id .filling) t) (o : Outcome) :
    Spent s (t.setSlot id (.full o)) := by
  intro k
  refine ⟨(h k).1, ?_⟩
  by_cases hk : k = id
  · rw [hk, allowance_setSlot_self, h.callsOf_filled]
    exact callsOf_le_allowance s id
  · rw [allowance_setSlot_of_ne _ _ hk, ← allowance_setSlot_of_ne s .filling hk]
    exact (h k).2

section

variable (hsu : Spent (s.setSlot id .filling) u) (hu : u.Tidy) (haddon : addon.id = id)
  (hut : Spent (u.computing addon) t)
include hsu hu haddon hut

/-- The addon that is filled in is computed only once, also when it asks for others. -/
theorem callsOf_computed : t.callsOf id = s.callsOf id + 1 := by
  have hcalls := callsOf_computing hu addon id
  have hallowance := allowance_computing hu addon id
  rw [if_pos haddon.symm] at hcalls hallowance
  have hstart := (hsu id).2
  rw [allowance_setSlot_self] at hstart
  have hfinish := callsOf_le_allowance t id
  have hmonotone : s.callsOf id ≤ u.callsOf id := (hsu id).1
  have hspent := hut id
  -- `hstart` leaves the addon no computation before its own, and `hspent` none after it.
  omega

theorem computed (hnew : s.slots.lookup id = none) (o : Outcome) :
    Spent s (t.setSlot id (.full o)) := by
  intro k
  by_cases hk : k = id
  · rw [hk, allowance_setSlot_self, allowance_of_new hnew]
    have hcalls := callsOf_computed hsu hu haddon hut
    exact ⟨(Nat.le_succ _).trans_eq hcalls.symm, hcalls.le⟩
  · have hne : k ≠ addon.id := haddon ▸ hk
    have hcalls := callsOf_computing hu addon k
    have hallowance := allowance_computing hu addon k
    rw [if_neg hne, Nat.add_zero] at hcalls hallowance
    rw [allowance_setSlot_of_ne _ _ hk, ← allowance_setSlot_of_ne s .filling hk]
    exact ⟨(hsu k).1.trans (hcalls ▸ (hut k).1), (hallowance ▸ (hut k).2).trans (hsu k).2⟩

end

end Spent

end Store

namespace Question

open Store (Spent Tidy)

variable {q q' : Question} {addon : Addon} {value : AddonValue} {result : Outcome × Store}

theorem answer_tidy (q : Question) (h : q.store.Tidy) : q.answer.2.Tidy :=
  answer_keeps (C := fun _ => True) Tidy.indifferent (fun _ _ _ _ => trivial)
    (fun _ _ _ h => h.setSlot) (fun _ _ _ h => h.setSlot) (fun _ _ _ _ _ _ _ h => h.setSlot)
    q trivial h

theorem Involves.tidy (h : q.Involves q') (htidy : q.store.Tidy) : q'.store.Tidy := by
  induction h with
  | refl => exact htidy
  | tail _ hraises ih =>
    exact hraises.keeps Tidy.indifferent (fun q' _ h => q'.answer_tidy h) ih.setSlot

section

variable (hask : ∀ q', q.Raises q' → q'.store.Tidy → Spent q'.store q'.answer.2)
  (htidy : q.store.Tidy)
include hask htidy

theorem Opens.spent (h : q.Opens addon) :
    let t := (Store.firstBlocked q.ask addon.dependsOn q.begun).2
    t.Tidy ∧ Spent q.begun t :=
  h.keeps (P := fun t => t.Tidy ∧ Spent q.begun t)
    (fun q' hq' h => ⟨q'.answer_tidy h.1, h.2.trans (hask q' hq' h.1)⟩) ⟨htidy.setSlot, .refl _⟩

theorem Opens.located_spent (h : q.Opens addon) :
    (q.located addon).2.Tidy ∧ Spent q.begun (q.located addon).2 := by
  obtain ⟨htidy', hspent⟩ := h.spent hask htidy
  exact ⟨Tidy.indifferent.cacheKey? addon htidy', hspent.cacheKey? addon⟩

theorem Calls.spent (hcalls : q.Calls addon) :
    Spent (q.start addon) (q.computed addon).2 := by
  have hstart := (hcalls.toOpens.located_spent hask htidy).1
  refine (Query.answer_keeps (P := fun t => t.Tidy ∧ Spent (q.start addon) t)
    (fun d t hputs h => ?_) ⟨Tidy.indifferent.computing addon hstart, .refl _⟩).2
  exact ⟨answer_tidy ⟨q.room - 1, d, t⟩ h.1,
    h.2.trans (hask ⟨q.room - 1, d, t⟩ (.computation hcalls hputs) h.1)⟩

theorem Course.spent (h : q.Course result) : Spent q.store result.2 := by
  cases h with
  | exhausted => exact .refl _
  | waits => exact .refl _
  | known => exact .refl _
  | unknown => exact (Spent.refl q.begun).filled _
  | @fills addon _ _ hopens hfills =>
    cases hfills with
    | blocked => exact (hopens.spent hask htidy).2.filled _
    | found => exact (hopens.located_spent hask htidy).2.filled _
    | computed hcalls =>
      obtain ⟨htidy', hspent⟩ := hopens.located_spent hask htidy
      have hkept := (hcalls.spent hask htidy).kept addon (q.located addon).1 (q.computed addon).1
      exact hspent.computed htidy' (htidy.names hopens.lookup) hkept hopens.new _

theorem Course.exists_calls (h : q.Course result)
    (hcalls : result.2.callsOf q.id ≠ q.store.callsOf q.id) : ∃ addon, q.Calls addon := by
  cases h with
  | exhausted => exact absurd rfl hcalls
  | waits => exact absurd rfl hcalls
  | known => exact absurd rfl hcalls
  | unknown => exact absurd rfl hcalls
  | fills hopens hfills =>
    cases hfills with
    | blocked => exact absurd (hopens.spent hask htidy).2.callsOf_filled hcalls
    | found => exact absurd (hopens.located_spent hask htidy).2.callsOf_filled hcalls
    | computed h => exact ⟨_, h⟩

end

theorem answer_spent (q : Question) (h : q.store.Tidy) : Spent q.store q.answer.2 := by
  induction q using raises_induction with
  | h q hask => exact q.course.spent hask h

section

variable (htidy : q.store.Tidy)
include htidy

theorem exists_calls (hcalls : q.answer.2.callsOf q.id ≠ q.store.callsOf q.id) :
    ∃ addon, q.Calls addon :=
  q.course.exists_calls (fun q' _ h => q'.answer_spent h) htidy hcalls

theorem Calls.callsOf_answer (h : q.Calls addon) :
    q.answer.2.callsOf q.id = q.store.callsOf q.id + 1 := by
  have hask (q' : Question) (_ : q.Raises q') (h : q'.store.Tidy) := q'.answer_spent h
  obtain ⟨htidy', hspent⟩ := h.toOpens.located_spent hask htidy
  have hkept := (h.spent hask htidy).kept addon (q.located addon).1 (q.computed addon).1
  have hcalls := hspent.callsOf_computed htidy' (htidy.names h.lookup) hkept
  rw [h.answer_eq]
  exact hcalls

theorem Opens.callsOf_of_found (h : q.Opens addon) (hready : q.Ready addon)
    (hfound : q.found? addon = some value) :
    q.answer.2.callsOf q.id = q.store.callsOf q.id := by
  have hask (q' : Question) (_ : q.Raises q') (h : q'.store.Tidy) := q'.answer_spent h
  rw [h.answer_of_found hready hfound]
  exact (h.located_spent hask htidy).2.callsOf_filled

end

end Question

end EbuildAudit
