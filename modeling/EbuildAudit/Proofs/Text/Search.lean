import EbuildAudit.Proofs.Text.Pieces
import EbuildAudit.Text.Basic

namespace EbuildAudit.Text

variable {α β : Type} {take : List Char → Option (β × List Char)} {b : β} {c : Char}
  {cs skipped rest : List Char}

theorem findAll_nil : findAll take [] = [] := by
  rw [findAll]

theorem findAll_cons_of_none (h : take (c :: cs) = none) :
    findAll take (c :: cs) = findAll take cs := by
  rw [findAll, h]

theorem findAll_of_some (h : take cs = some (b, rest)) (hlt : rest.length < cs.length) :
    findAll take cs = b :: findAll take rest := by
  cases cs with
  | nil => exact absurd hlt (Nat.not_lt_zero _)
  | cons c cs =>
    rw [findAll, h]
    exact dif_pos (Nat.le_of_lt_succ hlt)

theorem findAll_append_of_none (h : ∀ c ∈ skipped, ∀ cs, take (c :: cs) = none) :
    findAll take (skipped ++ rest) = findAll take rest := by
  induction skipped with
  | nil => rfl
  | cons c skipped ih =>
    rw [List.forall_mem_cons] at h
    rw [List.cons_append, findAll_cons_of_none (h.1 _), ih h.2]

theorem findFirst?_append_of_none (h : ∀ c ∈ skipped, ∀ cs, take (c :: cs) = none) :
    findFirst? take (skipped ++ rest) = findFirst? take rest := by
  induction skipped with
  | nil => rfl
  | cons c skipped ih =>
    rw [List.forall_mem_cons] at h
    rw [List.cons_append, findFirst?, h.1, ih h.2]

theorem findFirst?_of_some (hne : cs ≠ []) (h : take cs = some (b, rest)) :
    findFirst? take cs = some b := by
  obtain ⟨c, cs, rfl⟩ := List.exists_cons_of_ne_nil hne
  rw [findFirst?, h]

def Blank (cs : List Char) : Prop :=
  ∀ c ∈ cs, isBlank c = true

instance (cs : List Char) : Decidable (Blank cs) :=
  cs.decidableBAll (isBlank · = true)

/-- The elements of a row, with white space before, between and after them. -/
inductive Spaced (Renders : α → List Char → Prop) : List α → List Char → Prop
  | nil {gap : List Char} : Blank gap → Spaced Renders [] gap
  | cons {a : α} {as : List α} {gap piece cs : List Char} :
    Blank gap → Renders a piece → Spaced Renders as cs →
      Spaced Renders (a :: as) (gap ++ (piece ++ cs))

def spaceOut (gap : List Char) (write : α → List Char) : List α → List Char
  | [] => gap
  | a :: as => gap ++ (write a ++ spaceOut gap write as)

theorem spaced_spaceOut {Renders : α → List Char → Prop} {gap : List Char} {write : α → List Char}
    {as : List α} (hgap : Blank gap) (h : ∀ a ∈ as, Renders a (write a)) :
    Spaced Renders as (spaceOut gap write as) := by
  induction as with
  | nil => exact .nil hgap
  | cons a as ih =>
    rw [List.forall_mem_cons] at h
    exact .cons hgap h.1 (ih h.2)

theorem findAll_spaced {Renders : α → List Char → Prop} {Reads : α → β → Prop} {as : List α}
    (hgap : ∀ c cs, isBlank c = true → take (c :: cs) = none)
    (hread : ∀ a piece, Renders a piece → ∃ b, Reads a b ∧
      ∀ rest, take (piece ++ rest) = some (b, rest))
    (h : Spaced Renders as cs) : ∃ bs, List.Forall₂ Reads as bs ∧
      ∀ rest, findAll take (cs ++ rest) = bs ++ findAll take rest := by
  have hskip {gap rest : List Char} (hblank : Blank gap) :
      findAll take (gap ++ rest) = findAll take rest :=
    findAll_append_of_none fun c hc cs => hgap c cs (hblank c hc)
  induction h with
  | nil hblank => exact ⟨[], .nil, fun rest => hskip hblank⟩
  | @cons a as gap piece cs hblank hrender _ ih =>
    obtain ⟨b, hb, htake⟩ := hread a piece hrender
    obtain ⟨bs, hbs, hfind⟩ := ih
    -- A piece without text would be read at a blank, too.
    have hpiece : piece ≠ [] := by
      rintro rfl
      have hnone := hgap ' ' [] (by decide)
      rw [← List.nil_append [' '], htake] at hnone
      cases hnone
    refine ⟨b :: bs, .cons hb hbs, fun rest => ?_⟩
    have hlt : (cs ++ rest).length < (piece ++ (cs ++ rest)).length := by
      have hpos := List.length_pos_iff.2 hpiece
      simp only [List.length_append]
      omega
    rw [List.append_assoc, hskip hblank, List.append_assoc, findAll_of_some (htake _) hlt, hfind,
      List.cons_append]

def Skips (mark cs : List Char) : Prop :=
  ∀ rest, cutAt? mark (cs ++ rest) =
    (cutAt? mark rest).map fun (before, after) => (cs ++ before, after)

variable {mark : List Char}

theorem Skips.nil : Skips mark [] := by
  intro rest
  cases h : cutAt? mark rest <;> simp [h]

theorem Skips.cons (h : ∀ rest, mark.isPrefixOf? (c :: (cs ++ rest)) = none) (hcs : Skips mark cs) :
    Skips mark (c :: cs) := by
  intro rest
  rw [List.cons_append, cutAt?, h, hcs rest, Option.map_map]
  rfl

theorem Skips.append (h : Skips mark cs) (h' : Skips mark skipped) :
    Skips mark (cs ++ skipped) := by
  intro rest
  rw [List.append_assoc, h, h', Option.map_map]
  cases cutAt? mark rest <;> simp

theorem skips_of_not_mem {m : Char} (hmark : mark.head? = some m) (h : m ∉ cs) :
    Skips mark cs := by
  obtain ⟨ms, rfl⟩ := List.head?_eq_some_iff.1 hmark
  induction cs with
  | nil => exact .nil
  | cons c cs ih =>
    rw [List.mem_cons, not_or] at h
    refine .cons (fun rest => ?_) (ih h.2)
    simp [List.isPrefixOf?, h.1]

theorem cutAt?_of_skips (hmark : mark ≠ []) (h : Skips mark cs) :
    cutAt? mark (cs ++ (mark ++ rest)) = some (cs, rest) := by
  rw [h, cutAt?_mark hmark]
  simp

end EbuildAudit.Text
