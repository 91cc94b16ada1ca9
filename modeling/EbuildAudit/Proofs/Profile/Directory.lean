import EbuildAudit.Profile.Data
import EbuildAudit.Proofs.Text.Pieces
import Mathlib.Data.List.Basic

namespace EbuildAudit.Profile

structure IsTrimmed (path : String) : Prop where
  first : path.toList.head? ≠ some '/'
  last : path.toList.getLast? ≠ some '/'

instance (path : String) : Decidable (IsTrimmed path) :=
  decidable_of_iff (path.toList.head? ≠ some '/' ∧ path.toList.getLast? ≠ some '/')
    ⟨fun h => ⟨h.1, h.2⟩, fun h => ⟨h.first, h.last⟩⟩

/-- The path is the directory, or lies below it. -/
def LiesIn (path dir : String) : Prop :=
  path = dir ∨ ∃ rest, path = dir ++ "/" ++ rest

variable {path dir : String} {cs rest : List Char}

theorem IsTrimmed.trimSlashes_eq (h : IsTrimmed path) : trimSlashes path = path := by
  have hfirst : ∀ c ∈ path.toList.head?, ¬decide (c = '/') := by
    rintro c hc hslash
    exact h.first (of_decide_eq_true hslash ▸ hc)
  have hlast : ∀ c ∈ path.toList.reverse.head?, ¬decide (c = '/') := by
    rintro c hc hslash
    rw [List.head?_reverse] at hc
    exact h.last (of_decide_eq_true hslash ▸ hc)
  have hstart := Text.dropWhile_append_stop (List.forall_mem_nil _) hfirst
  have hend := Text.dropWhile_append_stop (List.forall_mem_nil _) hlast
  rw [List.nil_append] at hstart hend
  rw [trimSlashes, Text.trimWhile, hstart, Text.dropEndWhile, hend, List.reverse_reverse,
    String.ofList_toList]

theorem mem_afterSlashes : rest ∈ afterSlashes cs ↔ ∃ before, cs = before ++ '/' :: rest := by
  induction cs with
  | nil => simp [afterSlashes]
  | cons c cs ih =>
    have hcons : (∃ before, c :: cs = before ++ '/' :: rest) ↔
        (c = '/' ∧ cs = rest) ∨ ∃ before, cs = before ++ '/' :: rest := by
      constructor
      · rintro ⟨before, h⟩
        cases before with
        | nil => exact .inl (List.cons.inj h)
        | cons d before => exact .inr ⟨before, (List.cons.inj h).2⟩
      · rintro (⟨rfl, rfl⟩ | ⟨before, rfl⟩)
        · exact ⟨[], rfl⟩
        · exact ⟨c :: before, rfl⟩
    rw [afterSlashes, hcons, ← ih]
    split
    case isTrue hc => simp [hc, eq_comm]
    case isFalse hc => simp [hc]

theorem mem_dirParents (h : IsTrimmed path) :
    dir ∈ dirParents path ↔ path ≠ "" ∧ LiesIn path dir := by
  have hbelow : (∃ rest ∈ afterSlashes path.toList.reverse, String.ofList rest.reverse = dir) ↔
      ∃ rest, path = dir ++ "/" ++ rest := by
    constructor
    · rintro ⟨rest, hrest, rfl⟩
      obtain ⟨before, hbefore⟩ := mem_afterSlashes.1 hrest
      refine ⟨String.ofList before.reverse, String.toList_inj.1 ?_⟩
      rw [← List.reverse_reverse path.toList, hbefore]
      simp
    · rintro ⟨rest, rfl⟩
      refine ⟨dir.toList.reverse, mem_afterSlashes.2 ⟨rest.toList.reverse, ?_⟩, ?_⟩
      · simp
      · simp
  simp only [dirParents, h.trimSlashes_eq]
  by_cases htop : path = ""
  · simp [htop]
  · rw [if_neg (by simpa using htop), List.mem_cons, List.mem_map, hbelow, LiesIn,
      eq_comm (a := dir)]
    simp [htop]

end EbuildAudit.Profile
