import Mathlib.Data.Prod.Lex

namespace EbuildAudit

variable {ε α β : Type}

theorem exists_of_bind_eq_ok {x : Except ε α} {f : α → Except ε β} {b : β}
    (h : x >>= f = .ok b) : ∃ a, x = .ok a ∧ f a = .ok b := by
  cases x with
  | error e => cases h
  | ok a => exact ⟨a, rfl, h⟩

theorem of_bind_eq_error {x : Except ε α} {f : α → Except ε β} {e : ε}
    (h : x >>= f = .error e) : x = .error e ∨ ∃ a, x = .ok a ∧ f a = .error e := by
  cases x with
  | error cause => exact .inl (congrArg Except.error (Except.error.inj h))
  | ok a => exact .inr ⟨a, rfl, h⟩

theorem toOption_eq_some_iff {x : Except ε α} {a : α} : x.toOption = some a ↔ x = .ok a := by
  cases x <;> simp [Except.toOption]

end EbuildAudit

namespace EbuildAudit

variable {α β : Type} [BEq α] [LawfulBEq α]

theorem lookup_filter_self (a : α) (l : List (α × β)) :
    (l.filter (·.1 != a)).lookup a = none := by
  rw [List.lookup_eq_none_iff]
  intro p hp
  have hne : p.1 ≠ a := by simpa using (List.mem_filter.1 hp).2
  simpa using hne.symm

theorem lookup_filter_of_ne {a b : α} (h : b ≠ a) (l : List (α × β)) :
    (l.filter (·.1 != a)).lookup b = l.lookup b := by
  induction l with
  | nil => rfl
  | cons p l ih =>
    by_cases hk : p.1 = a
    · have hb : (b == p.1) = false := by simpa [hk] using h
      rw [List.filter_cons_of_neg (by simpa using hk), ih, List.lookup_cons, hb]
    · rw [List.filter_cons_of_pos (by simpa using hk), List.lookup_cons, List.lookup_cons, ih]

omit [LawfulBEq α] in
theorem lookup_map_values {γ : Type} (f : β → γ) (a : α) (l : List (α × β)) :
    (l.map fun (k, b) => (k, f b)).lookup a = (l.lookup a).map f := by
  induction l with
  | nil => rfl
  | cons p l ih =>
    rw [List.map_cons, List.lookup_cons, List.lookup_cons]
    cases a == p.1 with
    | true => rfl
    | false => exact ih

theorem mem_of_lookup {a : α} {b : β} {l : List (α × β)} (h : l.lookup a = some b) :
    (a, b) ∈ l := by
  obtain ⟨l₁, l₂, rfl, -⟩ := List.lookup_eq_some_iff.1 h
  simp

theorem not_mem_of_lookup {a : α} {l : List (α × β)} (h : l.lookup a = none) :
    a ∉ l.map (·.1) := by
  intro hmem
  obtain ⟨p, hp, rfl⟩ := List.mem_map.1 hmem
  simpa using List.lookup_eq_none_iff.1 h p hp

theorem lookup_of_mem {a : α} {b : β} {l : List (α × β)} (hl : (l.map (·.1)).Nodup)
    (h : (a, b) ∈ l) : l.lookup a = some b := by
  obtain ⟨l₁, l₂, rfl⟩ := List.append_of_mem h
  rw [List.lookup_eq_some_iff]
  refine ⟨l₁, l₂, rfl, fun p hp => ?_⟩
  simp only [List.map_append, List.map_cons, List.nodup_append] at hl
  simpa using (hl.2.2 p.1 (List.mem_map_of_mem hp) a (by simp)).symm

theorem perm_cons_filter {a : α} {b : β} {l : List (α × β)} (hl : (l.map (·.1)).Nodup)
    (h : l.lookup a = some b) : l.Perm ((a, b) :: l.filter (·.1 != a)) := by
  obtain ⟨l₁, l₂, rfl, h₁⟩ := List.lookup_eq_some_iff.1 h
  have h₂ : ∀ p ∈ l₂, p.1 ≠ a := by
    intro p hp
    simp only [List.map_append, List.map_cons, List.nodup_append, List.nodup_cons] at hl
    exact fun ha => hl.2.1.1 (ha ▸ List.mem_map_of_mem hp)
  have hf₁ : l₁.filter (·.1 != a) = l₁ :=
    List.filter_eq_self.2 fun p hp => by simpa [bne, BEq.comm] using h₁ p hp
  have hf₂ : l₂.filter (·.1 != a) = l₂ :=
    List.filter_eq_self.2 fun p hp => by simpa using h₂ p hp
  rw [List.filter_append, List.filter_cons_of_neg (by simp), hf₁, hf₂]
  exact List.perm_middle

end EbuildAudit

namespace EbuildAudit

variable {α β : Type} {l : List α} {x : α} {keep : α → Bool}

theorem infix_flatMap (hx : x ∈ l) (f : α → List β) : f x <:+: l.flatMap f := by
  rw [List.flatMap_def]
  exact List.infix_of_mem_flatten (List.mem_map_of_mem hx)

theorem flatMap_eq_of_mem {f : α → List β} (hl : l.Nodup) (hx : x ∈ l)
    (h : ∀ y ∈ l, y ≠ x → f y = []) : l.flatMap f = f x := by
  obtain ⟨before, after, rfl⟩ := List.append_of_mem hx
  rw [List.nodup_append, List.nodup_cons] at hl
  obtain ⟨-, ⟨hafter, -⟩, hbefore⟩ := hl
  have hnil : before.flatMap f = [] ∧ after.flatMap f = [] := by
    simp only [List.flatMap_eq_nil_iff]
    constructor
    · intro y hy
      exact h y (List.mem_append_left _ hy) (hbefore y hy x List.mem_cons_self)
    · intro y hy
      refine h y (List.mem_append_right _ (List.mem_cons_of_mem _ hy)) ?_
      rintro rfl
      exact hafter hy
  rw [List.flatMap_append, List.flatMap_cons, hnil.1, hnil.2, List.nil_append, List.append_nil]

theorem flatMap_eq_append_cons_iff {f : α → List β} {us vs : List β} {b : β} :
    l.flatMap f = us ++ b :: vs ↔ ∃ front x back us' vs', l = front ++ x :: back ∧
      f x = us' ++ b :: vs' ∧ us = front.flatMap f ++ us' ∧ vs = vs' ++ back.flatMap f := by
  constructor
  · intro h
    induction l generalizing us with
    | nil => cases us <;> cases h
    | cons x l ih =>
      rw [List.flatMap_cons] at h
      rcases List.append_eq_append_iff.1 h with ⟨us, rfl, hrest⟩ | ⟨vs, hx, hrest⟩
      · obtain ⟨front, y, back, us', vs', rfl, hy, rfl, rfl⟩ := ih hrest
        exact ⟨x :: front, y, back, us', vs', rfl, hy, by simp, rfl⟩
      · cases vs with
        | nil =>
          -- the element is the first one that the rest of the list gives
          have hfirst : l.flatMap f = [] ++ b :: _ := hrest.symm
          obtain ⟨front, y, back, us', vs', rfl, hy, hus, rfl⟩ := ih hfirst
          exact ⟨x :: front, y, back, us', vs', rfl, hy, by simp [hx, hus], rfl⟩
        | cons v vs =>
          obtain ⟨rfl, rfl⟩ := List.cons.inj hrest
          exact ⟨[], x, l, us, vs, rfl, hx, rfl, rfl⟩
  · rintro ⟨front, x, back, us, vs, rfl, hx, rfl, rfl⟩
    simp [hx]

theorem flatMap_filter_of {f : α → List β} (h : ∀ x ∈ l, keep x = false → f x = []) :
    (l.filter keep).flatMap f = l.flatMap f := by
  induction l with
  | nil => rfl
  | cons x l ih =>
    obtain ⟨hx, hl⟩ := List.forall_mem_cons.1 h
    by_cases hkeep : keep x = true
    · rw [List.filter_cons_of_pos hkeep, List.flatMap_cons, List.flatMap_cons, ih hl]
    · rw [List.filter_cons_of_neg hkeep, List.flatMap_cons, hx (Bool.eq_false_iff.2 hkeep),
        List.nil_append, ih hl]

theorem filterMap_filter_eq_iff {f : α → Option β} :
    (l.filter keep).filterMap f = l.filterMap f ↔
      ∀ x ∈ l, (f x).isSome = true → keep x = true := by
  induction l with
  | nil => simp
  | cons x l ih =>
    rw [List.forall_mem_cons]
    by_cases hkeep : keep x = true
    · rw [List.filter_cons_of_pos hkeep, List.filterMap_cons, List.filterMap_cons]
      cases f x with
      | none => simp [ih]
      | some b => simp [ih, hkeep]
    · rw [List.filter_cons_of_neg hkeep, List.filterMap_cons]
      cases f x with
      | none => simp [ih]
      | some b =>
        -- the left side is shorter than the right one, whatever is kept
        have hfewer : ((l.filter keep).filterMap f).length ≤ (l.filterMap f).length :=
          (List.filter_sublist.filterMap f).length_le
        have hne : (l.filter keep).filterMap f ≠ b :: l.filterMap f := by
          intro h
          rw [h, List.length_cons] at hfewer
          omega
        simp [hne, hkeep]

end EbuildAudit

namespace EbuildAudit

variable {α β κ : Type} [Ord κ] [Std.TransOrd κ] {le : α → α → Bool} {l l' : List α}

theorem pairwise_mergeSort_by (key : α → κ)
    (hle : ∀ a ∈ l, ∀ b ∈ l, le a b = (compare (key a) (key b)).isLE) :
    (l.mergeSort le).Pairwise fun a b => (compare (key a) (key b)).isLE = true := by
  have hkeys : ((l.map key).mergeSort fun k k' => (compare k k').isLE).Pairwise
      fun k k' => (compare k k').isLE = true := by
    refine List.pairwise_mergeSort (fun _ _ _ => Std.TransCmp.isLE_trans) (fun k k' => ?_) _
    have hswap : compare k' k = (compare k k').swap := Std.OrientedCmp.eq_swap
    rw [hswap]
    cases compare k k' <;> rfl
  rwa [← List.map_mergeSort hle, List.pairwise_map] at hkeys

section

variable [Std.LawfulEqOrd κ]

theorem eq_of_perm_of_pairwise (key : α → κ) (hperm : l.Perm l')
    (hkey : ∀ a ∈ l, ∀ b ∈ l, key a = key b → a = b)
    (h : l.Pairwise fun a b => (compare (key a) (key b)).isLE = true)
    (h' : l'.Pairwise fun a b => (compare (key a) (key b)).isLE = true) : l = l' := by
  refine hperm.eq_of_pairwise (fun a b ha hb hab hba => ?_) h h'
  refine hkey a ha b (hperm.mem_iff.2 hb) (Std.LawfulEqOrd.eq_of_compare ?_)
  have hswap : compare (key b) (key a) = (compare (key a) (key b)).swap := Std.OrientedCmp.eq_swap
  rw [hswap] at hba
  cases hcompare : compare (key a) (key b) <;> simp_all

theorem filterMap_mergeSort {le' : β → β → Bool} {f : α → Option β} (key : α → κ) (key' : β → κ)
    (hle : ∀ a ∈ l, ∀ b ∈ l, le a b = (compare (key a) (key b)).isLE)
    (hle' : ∀ a ∈ l.filterMap f, ∀ b ∈ l.filterMap f,
      le' a b = (compare (key' a) (key' b)).isLE)
    (hf : ∀ a b, f a = some b → key' b = key a)
    (hkey : ∀ a ∈ l.filterMap f, ∀ b ∈ l.filterMap f, key' a = key' b → a = b) :
    (l.mergeSort le).filterMap f = (l.filterMap f).mergeSort le' := by
  have hsorted := (List.mergeSort_perm l le).filterMap f
  refine eq_of_perm_of_pairwise key' (hsorted.trans (List.mergeSort_perm _ _).symm)
    (fun a ha b hb => hkey a (hsorted.mem_iff.1 ha) b (hsorted.mem_iff.1 hb)) ?_
    (pairwise_mergeSort_by key' hle')
  rw [List.pairwise_filterMap]
  refine (pairwise_mergeSort_by key hle).imp fun {a a'} hlt b hb b' hb' => ?_
  rwa [hf a b hb, hf a' b' hb']

end

/-- A sort keeps what it finds equal in its order, so it may as well go by that. -/
theorem mergeSort_eq_of_ties {lex : α → α → Bool} (hself : ∀ a ∈ l, le a a = true ∧ lex a a = true)
    (h : l.Pairwise fun a b => lex a b = le a b ∧ lex b a = (le b a && !le a b)) :
    l.mergeSort le = l.mergeSort lex := by
  have hplace : ∀ x ∈ l.zipIdx, ∀ y ∈ l.zipIdx, List.zipIdxLE le x y = lex x.1 y.1 := by
    rintro ⟨a, i⟩ ha ⟨b, j⟩ hb
    rw [List.mk_mem_zipIdx_iff_getElem?] at ha hb
    obtain ⟨hi, rfl⟩ := List.getElem?_eq_some_iff.1 ha
    obtain ⟨hj, rfl⟩ := List.getElem?_eq_some_iff.1 hb
    rw [List.pairwise_iff_getElem] at h
    rcases Nat.lt_trichotomy i j with hlt | rfl | hlt
    · simp [List.zipIdxLE, (h i j hi hj hlt).1, Nat.le_of_lt hlt]
    · simp [List.zipIdxLE, hself _ (List.getElem_mem hi)]
    · simp [List.zipIdxLE, (h j i hj hi hlt).2, Nat.not_le.2 hlt]
  rw [← List.mergeSort_zipIdx, List.map_mergeSort hplace, List.zipIdx_map_fst]

end EbuildAudit
