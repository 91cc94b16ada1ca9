import EbuildAudit.Proofs.Addon.Standing

namespace EbuildAudit.Store

/--
From stores in a relation two computations come to the same, which has a property, and they leave
stores in the relation.
-/
def Agree (R : Store → Store → Prop) (P : α → Prop) (x y : StateM Store α) : Prop :=
  ∀ s t, R s t → (x s).1 = (y t).1 ∧ P (x s).1 ∧ R (x s).2 (y t).2

variable {R : Store → Store → Prop} {P : α → Prop} {Q : β → Prop}
  {ask ask' : AddonId → StateM Store Outcome} {ids : List AddonId} {id : AddonId} {m n : Nat}

namespace Agree

theorem pure {a : α} (h : P a) : Agree R P (Pure.pure a) (Pure.pure a) :=
  fun _ _ hst => ⟨rfl, h, hst⟩

theorem forget {x y : StateM Store α} (h : Agree R P x y) : Agree R (fun _ => True) x y :=
  fun s t hst => ⟨(h s t hst).1, trivial, (h s t hst).2.2⟩

theorem bind {x y : StateM Store α} {f g : α → StateM Store β} (hx : Agree R P x y)
    (hf : ∀ a, P a → Agree R Q (f a) (g a)) : Agree R Q (x >>= f) (y >>= g) := by
  intro s t hst
  obtain ⟨hvalue, hP, hR⟩ := hx s t hst
  rw [bind_apply, bind_apply, ← hvalue]
  exact hf _ hP _ _ hR

theorem bind_get {f g : Store → StateM Store β} (hf : ∀ s t, R s t → Agree R Q (f s) (g t)) :
    Agree R Q (MonadState.get >>= f) (MonadState.get >>= g) :=
  fun s t hst => hf s t hst s t hst

theorem modify {f g : Store → Store} (h : ∀ s t, R s t → R (f s) (g t)) :
    Agree R (fun _ => True) (modify f) (modify g) :=
  fun s t hst => ⟨rfl, trivial, h s t hst⟩

theorem answer {q : Query α} (hq : q.AsksOnly ids)
    (hask : ∀ d ∈ ids, Agree R (fun _ => True) (ask d) (ask' d)) :
    Agree R (fun _ => True) (q.answer ask) (q.answer ask') := by
  induction q with
  | done a => exact pure trivial
  | ask addon next ih =>
    obtain ⟨hmem, hnext⟩ := hq
    exact bind (hask addon hmem) fun outcome _ => ih outcome (hnext outcome)

theorem firstBlocked (hask : ∀ d ∈ ids, Agree R (fun _ => True) (ask d) (ask' d)) :
    Agree R (fun _ => True) (firstBlocked ask ids) (firstBlocked ask' ids) := by
  induction ids with
  | nil => exact pure trivial
  | cons d ids ih =>
    apply bind (hask d List.mem_cons_self)
    intro outcome _
    cases blocked? d outcome with
    | some blocked => exact pure trivial
    | none => exact ih fun e he => hask e (List.mem_cons_of_mem d he)

end Agree

theorem setSlot_slots_ne_none {s : Store} {slot : Slot} {k : AddonId}
    (h : (s.setSlot id slot).slots.lookup k ≠ none) : k = id ∨ s.slots.lookup k ≠ none := by
  by_cases hk : k = id
  · exact .inl hk
  · rw [lookup_setSlot_of_ne _ _ hk] at h
    exact .inr h

structure Descending (addons : List (AddonId × Addon)) (rank : AddonId → Nat) : Prop where
  below {id : AddonId} {addon : Addon} : addons.lookup id = some addon →
    ∀ d ∈ addon.dependsOn, rank d < rank id
  asks {id : AddonId} {addon : Addon} : addons.lookup id = some addon →
    ∀ s, (addon.compute s).AsksOnly addon.dependsOn

structure Within (addons : List (AddonId × Addon)) (known : AddonId → Prop) (s t : Store) :
    Prop where
  eq : s = t
  addons : s.addons = addons
  slots (id : AddonId) : s.slots.lookup id ≠ none → known id

variable {addons : List (AddonId × Addon)} {known : AddonId → Prop} {rank : AddonId → Nat}
  {addon : Addon}

namespace Within

theorem map {f : Store → Store} (hslots : ∀ s, (f s).slots = s.slots)
    (haddons : ∀ s, (f s).addons = s.addons) (s t : Store) (h : Within addons known s t) :
    Within addons known (f s) (f t) where
  eq := congrArg f h.eq
  addons := (haddons s).trans h.addons
  slots id hid := h.slots id (hslots s ▸ hid)

theorem setSlot (slot : Slot) (hid : known id) (s t : Store) (h : Within addons known s t) :
    Within addons known (s.setSlot id slot) (t.setSlot id slot) where
  eq := congrArg (·.setSlot id slot) h.eq
  addons := h.addons
  slots k hk := by
    rcases setSlot_slots_ne_none hk with rfl | hk
    · exact hid
    · exact h.slots k hk

theorem keep (addon : Addon) (place : Option (Cache × CacheKey)) (value : AddonValue) :
    Agree (Within addons known) (fun _ => True) (keep addon place value)
      (keep addon place value) := by
  apply Agree.modify
  apply map <;> intro s <;> cases place <;> cases addon.encode value <;> rfl

theorem cacheKey? (addon : Addon) :
    Agree (Within addons known) (fun _ => True) (cacheKey? addon) (cacheKey? addon) := by
  apply Agree.bind_get
  rintro s t ⟨rfl, -, -⟩
  cases s.cache with
  | none => exact .pure trivial
  | some cache =>
    cases addon.persistVersion with
    | none => exact .pure trivial
    | some version =>
      refine Agree.bind (P := fun _ => True) (fun s t h => ?_) fun _ _ => .pure trivial
      exact ⟨by rw [h.eq], trivial,
        map (f := fun s => (identify s).2) (fun _ => rfl) (fun _ => rfl) s t h⟩

theorem compute (hasks : ∀ s, (addon.compute s).AsksOnly addon.dependsOn)
    (hask : ∀ d ∈ addon.dependsOn, Agree (Within addons known) (fun _ => True) (ask d) (ask' d))
    (place : Option (Cache × CacheKey)) : Agree (Within addons known) (fun _ => True)
      (compute ask addon place) (compute ask' addon place) := by
  refine Agree.bind (Agree.modify (map (fun _ => rfl) fun _ => rfl)) fun _ _ => ?_
  refine Agree.bind_get fun s t hst => ?_
  cases hst.eq
  refine Agree.bind (Agree.answer (hasks _) hask) fun computed _ => ?_
  cases computed with
  | error stop => exact .pure trivial
  | ok value => exact Agree.bind (keep addon place value) fun _ _ => .pure trivial

theorem fill (hid : addons.lookup id = some addon)
    (hasks : ∀ s, (addon.compute s).AsksOnly addon.dependsOn)
    (hask : ∀ d ∈ addon.dependsOn, Agree (Within addons known) (fun _ => True) (ask d) (ask' d)) :
    Agree (Within addons known) (fun _ => True) (fill ask id) (fill ask' id) := by
  refine Agree.bind_get fun s t hst => ?_
  rw [← hst.eq, hst.addons, hid]
  refine Agree.bind (Agree.firstBlocked hask) fun blocked _ => ?_
  cases blocked with
  | some outcome => exact .pure trivial
  | none =>
    refine Agree.bind (cacheKey? addon) fun place _ => ?_
    refine Agree.bind_get fun s t hst => ?_
    cases hst.eq
    cases cached? addon place s with
    | some value => exact .pure trivial
    | none => exact compute hasks hask place

/--
Two bounds on nested questions make no difference where both leave room for all ranks. If known
addons depend on known ones, no other is ever asked for.
-/
theorem getWithin (haddons : Descending addons rank)
    (hknown : ∀ id, known id →
      ∃ addon, addons.lookup id = some addon ∧ ∀ d ∈ addon.dependsOn, known d)
    (hid : known id) (hm : rank id < m) (hn : rank id < n) :
    Agree (Within addons known) (fun _ => True) (getWithin m id) (getWithin n id) := by
  induction m generalizing id n with
  | zero => cases hm
  | succ m ih =>
    cases n with
    | zero => cases hn
    | succ n =>
      obtain ⟨addon, haddon, hdeps⟩ := hknown id hid
      have hask (d : AddonId) (hd : d ∈ addon.dependsOn) :
          Agree (Within addons known) (fun _ => True) (Store.getWithin m d)
            (Store.getWithin n d) := by
        have hlower := haddons.below haddon d hd
        exact ih (hdeps d hd) (by omega) (by omega)
      refine Agree.bind_get fun s t hst => ?_
      cases hst.eq
      cases s.slots.lookup id with
      | some slot => cases slot <;> exact .pure trivial
      | none =>
        refine Agree.bind (Agree.modify (setSlot _ hid)) fun _ _ => ?_
        refine Agree.bind (fill haddon (haddons.asks haddon) hask) fun outcome _ => ?_
        exact Agree.bind (Agree.modify (setSlot _ hid)) fun _ _ => .pure trivial

end Within

end EbuildAudit.Store
