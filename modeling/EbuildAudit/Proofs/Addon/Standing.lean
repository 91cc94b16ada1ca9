import EbuildAudit.Proofs.Addon.Question

namespace EbuildAudit

namespace Store

inductive Asked (s : Store) : Store → Prop
  | refl : Asked s s
  | ask (id : AddonId) : Asked s t → Asked s (outcome id t).2

def answers (s : Store) (id : AddonId) : Outcome :=
  (outcome id s).1

variable {s t u : Store} {id k : AddonId} {v : Slot}

namespace Asked

theorem trans (hs : Asked s t) (ht : Asked t u) : Asked s u := by
  induction ht with
  | refl => exact hs
  | ask id _ ih => exact ih.ask id

theorem lookup (h : Asked s t) (hk : s.slots.lookup k = some v) : t.slots.lookup k = some v := by
  induction h with
  | refl => exact hk
  | @ask t id _ ih => exact (t.question id).answer_grown.kept ih

end Asked

theorem exists_slot (id : AddonId) (s : Store) :
    ∃ slot, (outcome id s).2.slots.lookup id = some slot ∧
      ∀ t, t.slots.lookup id = some slot → outcome id t = ((outcome id s).1, t) := by
  unfold outcome
  cases h : s.slots.lookup id with
  | none =>
    rw [getWithin_of_none h]
    exact ⟨_, lookup_setSlot_self _ _ _, fun t ht => getWithin_of_full ht⟩
  | some slot =>
    cases slot with
    | full outcome =>
      rw [getWithin_of_full h]
      exact ⟨_, h, fun t ht => getWithin_of_full ht⟩
    | filling =>
      rw [getWithin_of_filling h]
      exact ⟨_, h, fun t ht => getWithin_of_filling ht⟩

theorem outcome_again (h : Asked (outcome id s).2 t) : outcome id t = ((outcome id s).1, t) := by
  obtain ⟨slot, hslot, hagain⟩ := exists_slot id s
  exact hagain t (h.lookup hslot)

theorem Asked.run (q : Query α) (s : Store) : Asked s (Store.run q s).2 := by
  induction q generalizing s with
  | done a => exact refl
  | ask addon next ih => exact (refl.ask addon).trans (ih _ _)

/-- What a query comes to can be told from what the store answers in the end. -/
theorem run_eq (q : Query α) (h : Asked (Store.run q s).2 t) :
    (Store.run q s).1 = q.answer (m := Id) t.answers := by
  induction q generalizing s with
  | done a => rfl
  | ask addon next ih =>
    have hasked := (Asked.run (next (outcome addon s).1) (outcome addon s).2).trans h
    have hanswer : t.answers addon = (outcome addon s).1 := by
      rw [answers, outcome_again hasked]
    change (Store.run (next (outcome addon s).1) (outcome addon s).2).1 =
      (next (t.answers addon)).answer (m := Id) t.answers
    rw [hanswer]
    exact ih _ h

/-- A store that answers the same, whatever it is asked before. -/
def Steady (s : Store) : Prop :=
  ∀ t, Asked s t → t.answers = s.answers

structure Fixed (s : Store) : Prop where
  steady : s.Steady
  load_eq : ∀ t, Asked s t → ∀ path, t.load t.files path = s.load s.files path

end Store

end EbuildAudit
