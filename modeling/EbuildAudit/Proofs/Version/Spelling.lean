import EbuildAudit.Proofs.Version.Base
import EbuildAudit.Proofs.Version.Order

/-!
What counts of the way a version is written. The order leaves out zeros before the first component and
after a fraction, and takes a suffix without a number for one with the number zero. What is left is the
spelling of a version: versions that are equal in the order are those of one spelling and one
revision. A base that is written as it is spelled is the only such text.
-/

namespace EbuildAudit.Version

open Text

def spellComponent (a : List Char) : List Char :=
  if a.head? = some '0' then dropEndWhile (· = '0') a else a

def spellComponents : List (List Char) → List (List Char)
  | [] => []
  | a :: as => a.dropWhile (· = '0') :: as.map spellComponent

structure Spelling where
  components : List (List Char)
  letter : Option Char
  suffixes : List Suffix
  deriving DecidableEq

def spelling (v : Version) : Spelling where
  components := spellComponents v.components
  letter := v.letter
  suffixes := v.suffixes

namespace Spelling

def componentText (a : List Char) : List Char :=
  if a.isEmpty then ['0'] else a

def suffixText (x : Suffix) : List Char :=
  '_' :: x.kind.name ++ if x.number = 0 then [] else Nat.toDigits 10 x.number

def chars (x : Spelling) : List Char :=
  ['.'].intercalate (x.components.map componentText) ++ x.letter.toList ++
    x.suffixes.flatMap suffixText

end Spelling

/-- The base is written as it is spelled, without a zero that does not count. -/
def Terse (v : Version) : Prop :=
  v.base.toList = v.spelling.chars

instance (v : Version) : Decidable v.Terse :=
  inferInstanceAs (Decidable (_ = _))

/-- The bases are one to the order, and two texts. -/
def Respelled (v w : Version) : Prop :=
  v.base ≠ w.base ∧ v.spelling = w.spelling

variable {s t : String} {a b cs : List Char} {as bs : List (List Char)} {v w : Version}

theorem numberKey_eq_iff :
    numberKey a = numberKey b ↔ a.dropWhile (· = '0') = b.dropWhile (· = '0') := by
  constructor
  · exact fun h => congrArg (fun key => (ofLex key).2) h
  · exact fun h => congrArg (fun cs => toLex (byteLength cs, cs)) h

theorem spellComponent_ne (ha : a.head? = some '0') (hb : b.head? ≠ some '0') (hne : b ≠ []) :
    dropEndWhile (· = '0') a ≠ b := by
  rintro rfl
  rcases dropEndWhile_of_zero ha with hnil | ⟨rest, hrest⟩
  · exact hne hnil
  · exact hb (by rw [hrest, List.head?_cons])

theorem componentKey_eq_iff (ha : a ≠ []) (hb : b ≠ []) :
    componentKey a = componentKey b ↔ spellComponent a = spellComponent b := by
  have hspell (a : List Char) : (ofLex (componentKey a)).2 = spellComponent a := by
    rw [componentKey, spellComponent]
    split <;> rfl
  constructor
  · intro h
    rw [← hspell a, ← hspell b, h]
  · simp only [componentKey, spellComponent]
    by_cases hza : a.head? = some '0' <;> by_cases hzb : b.head? = some '0'
    · simp only [if_pos hza, if_pos hzb]
      exact fun h => congrArg _ (congrArg _ h)
    · simp only [if_pos hza, if_neg hzb]
      exact fun h => absurd h (spellComponent_ne hza hzb hb)
    · simp only [if_neg hza, if_pos hzb]
      exact fun h => absurd h.symm (spellComponent_ne hzb hza ha)
    · simp only [if_neg hza, if_neg hzb]
      rintro rfl
      rfl

theorem map_componentKey_eq_iff (ha : ∀ a ∈ as, a ≠ []) (hb : ∀ b ∈ bs, b ≠ []) :
    as.map componentKey = bs.map componentKey ↔ as.map spellComponent = bs.map spellComponent := by
  induction as generalizing bs with
  | nil => simp only [List.map_nil, List.nil_eq, List.map_eq_nil_iff]
  | cons a as ih =>
    cases bs with
    | nil => simp
    | cons b bs =>
      rw [List.forall_mem_cons] at ha hb
      simp only [List.map_cons, List.cons.injEq, componentKey_eq_iff ha.1 hb.1, ih ha.2 hb.2]

theorem componentKeys_eq_iff (ha : ∀ a ∈ as, a ≠ []) (hb : ∀ b ∈ bs, b ≠ []) :
    componentKeys as = componentKeys bs ↔ spellComponents as = spellComponents bs := by
  cases as with
  | nil => cases bs <;> simp [componentKeys, spellComponents]
  | cons a as =>
    cases bs with
    | nil => simp [componentKeys, spellComponents]
    | cons b bs =>
      rw [List.forall_mem_cons] at ha hb
      simp only [componentKeys, spellComponents, List.cons.injEq, numberKey_eq_iff,
        map_componentKey_eq_iff ha.2 hb.2]

theorem suffixKey_injective : Function.Injective suffixKey := by
  rintro ⟨kind, n⟩ ⟨kind', n'⟩ h
  obtain ⟨hkind, hnumber⟩ := Prod.mk.inj (toLex.injective h)
  obtain rfl : n = n' := hnumber
  cases kind <;> cases kind' <;> first | rfl | cases hkind

theorem suffixKeys_injective : Function.Injective suffixKeys :=
  fun _ _ h => List.map_injective_iff.2 suffixKey_injective (List.append_cancel_right h)

theorem ne_nil_of_parse? (h : parse? s = some v) : ∀ a ∈ v.components, a ≠ [] := by
  rw [components_of_ofChars? h]
  exact component_ne_nil h

theorem order_eq_iff_spelling (hv : parse? s = some v) (hw : parse? t = some w) :
    v.order w = .eq ↔ v.spelling = w.spelling ∧ v.revision = w.revision := by
  rw [order_eq_compare_key (numeric_of_parse? hv) (numeric_of_parse? hw),
    Std.LawfulEqOrd.compare_eq_iff_eq]
  simp only [key, spelling, EmbeddingLike.apply_eq_iff_eq, Prod.mk.injEq, Spelling.mk.injEq,
    componentKeys_eq_iff (ne_nil_of_parse? hv) (ne_nil_of_parse? hw), suffixKeys_injective.eq_iff,
    and_assoc]

theorem order_unrevised_eq_iff (hv : parse? s = some v) (hw : parse? t = some w) :
    v.unrevised.order w.unrevised = .eq ↔ v.spelling = w.spelling := by
  rw [order_eq_iff_spelling (parse?_base hv).1 (parse?_base hw).1]
  exact and_iff_left rfl

theorem spelling_eq_of_base_eq (hv : parse? s = some v) (hw : parse? t = some w)
    (h : v.base = w.base) : v.spelling = w.spelling := by
  have hspelling := congrArg spelling (unrevised_eq_of_base_eq hv hw h)
  exact hspelling

theorem Terse.base_eq (hv : v.Terse) (hw : w.Terse) (h : v.spelling = w.spelling) :
    v.base = w.base :=
  String.toList_inj.1 (hv.trans ((congrArg _ h).trans hw.symm))

end EbuildAudit.Version
