import EbuildAudit.Proofs.Dependency.Tidying
import Mathlib.Data.List.Basic

/-!
What is left of the references in an expanded value. The parts that come together when references
are dropped, or when punctuation between them is tidied away, can make up a new one.
-/

namespace EbuildAudit.Dependency

open Relation (ReflTransGen)

def Refers (cs : List Char) : Prop :=
  ∃ c, isIdentifierStart c = true ∧ (['$', c] <:+: cs ∨ ['$', '\x7b', c] <:+: cs)

def Begins (cs : List Char) : Prop :=
  ∃ c, isIdentifierStart c = true ∧ (['$', c] <+: cs ∨ ['$', '\x7b', c] <+: cs)

/-- The text has a dollar sign with which no reference begins. -/
def Stray (cs : List Char) : Prop :=
  ∃ before after, cs = before ++ '$' :: after ∧ ¬Begins ('$' :: after)

def Hollow (gap : List Char) : Prop :=
  tidy gap = []

/-- The parts of a reference stand in the text, with hollow punctuation between them at most. -/
def Exposed (cs : List Char) : Prop :=
  ∃ before gap c after, isIdentifierStart c = true ∧ Hollow gap ∧
    (cs = before ++ '$' :: (gap ++ c :: after) ∨ ∃ gap', Hollow gap' ∧
      cs = before ++ '$' :: (gap ++ '\x7b' :: (gap' ++ c :: after)))

def resolveChars (values : List (String × String)) (cs : List Char) : List Char :=
  replaceReferences (fun _ => []) <| replaceReferences
    (fun name => ((values.lookup (String.ofList name)).getD "").toList) cs

variable {c : Char} {cs t p q before after name rest : List Char}
  {value : List Char → List Char}

theorem expandChars_eq (values : List (String × String)) (cs : List Char) :
    expandChars values cs = tidy (resolveChars values cs) :=
  rfl

theorem refers_cons : Refers (c :: cs) ↔ Begins (c :: cs) ∨ Refers cs := by
  simp only [Refers, Begins, List.infix_cons_iff]
  constructor
  · rintro ⟨d, hd, (h | h) | (h | h)⟩
    · exact .inl ⟨d, hd, .inl h⟩
    · exact .inr ⟨d, hd, .inl h⟩
    · exact .inl ⟨d, hd, .inr h⟩
    · exact .inr ⟨d, hd, .inr h⟩
  · rintro (⟨d, hd, h | h⟩ | ⟨d, hd, h | h⟩)
    · exact ⟨d, hd, .inl (.inl h)⟩
    · exact ⟨d, hd, .inr (.inl h)⟩
    · exact ⟨d, hd, .inl (.inr h)⟩
    · exact ⟨d, hd, .inr (.inr h)⟩

theorem takeIdentifier_eq_nil_iff :
    (takeIdentifier cs).1 = [] ↔ ∀ c ∈ cs.head?, isIdentifierStart c = false := by
  cases cs with
  | nil => simp [takeIdentifier]
  | cons c cs => cases h : isIdentifierStart c <;> simp [takeIdentifier, h]

theorem begins_dollar_iff :
    Begins ('$' :: cs) ↔ ∃ c ∈ (dropOpenBrace cs).head?, isIdentifierStart c = true := by
  have hbrace : isIdentifierStart '\x7b' = false := by decide
  simp only [Begins, List.cons_prefix_cons, true_and]
  rw [dropOpenBrace.eq_def]
  split
  case h_1 cs =>
    constructor
    · rintro ⟨c, hc, h | h⟩
      · rw [(List.cons_prefix_cons.1 h).1, hbrace] at hc
        cases hc
      · obtain ⟨after, rfl⟩ := (List.cons_prefix_cons.1 h).2
        exact ⟨c, rfl, hc⟩
    · rintro ⟨c, hhead, hc⟩
      obtain ⟨after, rfl⟩ := List.head?_eq_some_iff.1 hhead
      exact ⟨c, hc, .inr ⟨after, rfl⟩⟩
  case h_2 hnot =>
    constructor
    · rintro ⟨c, hc, ⟨after, rfl⟩ | ⟨after, rfl⟩⟩
      · exact ⟨c, rfl, hc⟩
      · exact absurd rfl (hnot _)
    · rintro ⟨c, hhead, hc⟩
      obtain ⟨after, rfl⟩ := List.head?_eq_some_iff.1 hhead
      exact ⟨c, hc, .inl ⟨after, rfl⟩⟩

theorem takeReference?_eq_none_iff : takeReference? cs = none ↔ ¬Begins cs := by
  rw [takeReference?.eq_def]
  split
  case h_1 cs =>
    simp only [List.isEmpty_iff, takeIdentifier_eq_nil_iff, begins_dollar_iff]
    simp
  case h_2 hnot =>
    refine iff_of_true rfl ?_
    rintro ⟨c, -, ⟨after, rfl⟩ | ⟨after, rfl⟩⟩
    · exact hnot _ rfl
    · exact hnot _ rfl

theorem takeReference?_suffix (h : takeReference? cs = some (name, rest)) : rest <:+ cs := by
  have hidentifier (cs : List Char) : (takeIdentifier cs).2 <:+ cs := by
    rw [takeIdentifier.eq_def]
    split
    · split
      · exact (List.dropWhile_suffix _).trans (List.suffix_cons _ _)
      · exact List.suffix_rfl
    · exact List.suffix_rfl
  have hopen (cs : List Char) : dropOpenBrace cs <:+ cs := by
    rw [dropOpenBrace.eq_def]
    split
    · exact List.suffix_cons _ _
    · exact List.suffix_rfl
  have hclose (cs : List Char) : dropCloseBrace cs <:+ cs := by
    rw [dropCloseBrace.eq_def]
    split
    · exact List.suffix_cons _ _
    · exact List.suffix_rfl
  rw [takeReference?.eq_def] at h
  split at h
  case h_1 cs =>
    simp only [Option.ite_none_left_eq_some, Option.some.injEq, Prod.mk.injEq] at h
    obtain ⟨-, -, rfl⟩ := h
    exact ((hclose _).trans (hidentifier _)).trans ((hopen _).trans (List.suffix_cons _ _))
  case h_2 => cases h

theorem replaceReferences_of_not_begins (h : ¬Begins (c :: cs)) :
    replaceReferences value (c :: cs) = c :: replaceReferences value cs := by
  have hnone := takeReference?_eq_none_iff.2 h
  rw [replaceReferences]
  split
  case h_1 hsome =>
    rw [hnone] at hsome
    cases hsome
  case h_2 => rfl

theorem replaceReferences_of_not_refers (h : ¬Refers cs) : replaceReferences value cs = cs := by
  induction cs with
  | nil => rw [replaceReferences]
  | cons c cs ih =>
    rw [refers_cons, not_or] at h
    rw [replaceReferences_of_not_begins h.1, ih h.2]

theorem stray_cons : Stray (c :: cs) ↔ (c = '$' ∧ ¬Begins (c :: cs)) ∨ Stray cs := by
  constructor
  · rintro ⟨before, after, heq, h⟩
    cases before with
    | nil =>
      obtain ⟨rfl, rfl⟩ := List.cons.inj heq
      exact .inl ⟨rfl, h⟩
    | cons d before => exact .inr ⟨before, after, (List.cons.inj heq).2, h⟩
  · rintro (⟨rfl, h⟩ | ⟨before, after, rfl, h⟩)
    · exact ⟨[], cs, rfl, h⟩
    · exact ⟨c :: before, after, rfl, h⟩

theorem not_stray_nil : ¬Stray [] := by
  rintro ⟨before, after, heq, -⟩
  simp at heq

theorem Begins.append (h : Begins cs) (t : List Char) : Begins (cs ++ t) := by
  obtain ⟨c, hc, h | h⟩ := h
  · exact ⟨c, hc, .inl (h.trans (List.prefix_append _ _))⟩
  · exact ⟨c, hc, .inr (h.trans (List.prefix_append _ _))⟩

theorem not_stray_append (hcs : ¬Stray cs) (ht : ¬Stray t) : ¬Stray (cs ++ t) := by
  induction cs with
  | nil => exact ht
  | cons c cs ih =>
    rw [stray_cons, not_or, not_and_not_right] at hcs
    rw [List.cons_append, stray_cons, not_or, not_and_not_right]
    exact ⟨fun hc => (hcs.1 hc).append t, ih hcs.2⟩

theorem not_stray_of_suffix (hcs : ¬Stray cs) (h : t <:+ cs) : ¬Stray t := by
  rintro ⟨before, after, rfl, hbegins⟩
  obtain ⟨front, rfl⟩ := h
  exact hcs ⟨front ++ before, after, by simp, hbegins⟩

theorem not_stray_replaceReferences (hcs : ¬Stray cs) (hvalue : ∀ name, ¬Stray (value name)) :
    ¬Stray (replaceReferences value cs) := by
  fun_induction replaceReferences value cs with
  | case1 => exact not_stray_nil
  | case2 c cs name rest htake _ ih =>
    have hrest := not_stray_of_suffix hcs (takeReference?_suffix htake)
    exact not_stray_append (hvalue name) (ih hrest)
  | case3 c cs hnone ih =>
    rw [stray_cons, not_or, not_and_not_right] at hcs
    rw [stray_cons, not_or, not_and]
    exact ⟨fun hc => absurd (hcs.1 hc) (takeReference?_eq_none_iff.1 hnone), ih hcs.2⟩

theorem dollar_not_mem_dropped (hcs : ¬Stray cs) :
    '$' ∉ replaceReferences (fun _ => []) cs := by
  fun_induction replaceReferences (fun _ => []) cs with
  | case1 => exact List.not_mem_nil
  | case2 c cs name rest htake _ ih =>
    exact ih (not_stray_of_suffix hcs (takeReference?_suffix htake))
  | case3 c cs hnone ih =>
    rw [stray_cons, not_or, not_and_not_right] at hcs
    rw [List.mem_cons, not_or]
    exact ⟨fun hc => takeReference?_eq_none_iff.1 hnone (hcs.1 hc.symm), ih hcs.2⟩

def Kept (c : Char) : Prop :=
  c ≠ '[' ∧ c ≠ ']' ∧ c ≠ ','

instance (c : Char) : Decidable (Kept c) :=
  inferInstanceAs (Decidable (_ ∧ _ ∧ _))

theorem Surplus.ne {a b : Char} {left : List Char} (h : Surplus a b left) (hc : Kept c) :
    a ≠ c ∧ b ≠ c := by
  obtain ⟨hopen, hclose, hcomma⟩ := hc
  cases h <;> constructor <;> apply Ne.symm <;> assumption

theorem kept_of_isIdentifierStart (hc : isIdentifierStart c = true) : Kept c := by
  refine ⟨?_, ?_, ?_⟩ <;> rintro rfl <;> revert hc <;> decide

theorem tidy_append_cons (hc : Kept c) (cs t : List Char) :
    tidy (cs ++ c :: t) = tidy cs ++ c :: tidy t := by
  refine (eq_tidy_iff.2 ⟨?_, ?_⟩).symm
  · have hleft : ReflTransGen Tidying (cs ++ c :: t) (tidy cs ++ c :: t) :=
      (tidy_steps cs).lift (· ++ c :: t) fun _ _ h => h.append [] (c :: t)
    have hright : ReflTransGen Tidying (tidy cs ++ c :: t) (tidy cs ++ c :: tidy t) :=
      (tidy_steps t).lift (tidy cs ++ c :: ·) fun _ _ h => by
        simpa using h.append (tidy cs ++ [c]) []
    exact hleft.trans hright
  · rw [tidied_iff]
    rintro a b left hpair ⟨before, after, heq⟩
    have hne := hpair.ne hc
    simp only [List.append_assoc, List.cons_append, List.nil_append] at heq
    rcases List.append_eq_append_iff.1 heq with ⟨mid, hcs, hrest⟩ | ⟨mid, hbefore, hrest⟩
    · match mid with
      | [] => exact hne.1 (List.cons.inj hrest).1
      | [d] => exact hne.2 (List.cons.inj (List.cons.inj hrest).2).1
      | d :: e :: mid =>
        obtain ⟨rfl, hnext⟩ := List.cons.inj hrest
        obtain ⟨rfl, -⟩ := List.cons.inj hnext
        exact tidied_iff.1 (tidied_tidy cs) _ _ _ hpair ⟨before, mid, by simp [hcs]⟩
    · match mid with
      | [] => exact hne.1 (List.cons.inj hrest).1.symm
      | d :: mid =>
        refine tidied_iff.1 (tidied_tidy t) _ _ _ hpair ⟨mid, after, ?_⟩
        simp [(List.cons.inj hrest).2]

theorem exists_of_tidy {cs p q : List Char} (hc : Kept c) (h : tidy cs = p ++ c :: q) :
    ∃ before after, cs = before ++ c :: after ∧ tidy before = p ∧ tidy after = q := by
  have hkept {cs : List Char} (hmem : c ∈ tidy cs) : c ∈ cs := mem_of_steps (tidy_steps cs) hmem
  obtain ⟨before, after, rfl, hbefore⟩ :=
    List.eq_append_cons_of_mem (hkept (h ▸ List.mem_append_right p List.mem_cons_self))
  rw [tidy_append_cons hc] at h
  rcases List.append_eq_append_iff.1 h with ⟨mid, rfl, hrest⟩ | ⟨mid, hbefore', hrest⟩
  · cases mid with
    | nil => exact ⟨before, after, rfl, (List.append_nil _).symm, (List.cons.inj hrest).2⟩
    | cons d mid =>
      obtain ⟨rfl, hafter⟩ := List.cons.inj hrest
      obtain ⟨before', after', rfl, rfl, rfl⟩ := exists_of_tidy hc hafter
      exact ⟨before ++ c :: before', after', by simp, tidy_append_cons hc _ _, rfl⟩
  · cases mid with
    | nil =>
      rw [List.append_nil] at hbefore'
      exact ⟨before, after, rfl, hbefore', (List.cons.inj hrest).2.symm⟩
    | cons d mid =>
      obtain ⟨rfl, -⟩ := List.cons.inj hrest
      exact absurd (hkept (hbefore' ▸ List.mem_append_right p List.mem_cons_self)) hbefore
termination_by cs.length

theorem refers_tidy_iff : Refers (tidy cs) ↔ Exposed cs := by
  have hdollar : Kept '$' := by decide
  have hbrace : Kept '\x7b' := by decide
  constructor
  · rintro ⟨c, hc, ⟨p, q, h⟩ | ⟨p, q, h⟩⟩
    · have hstart := kept_of_isIdentifierStart hc
      have h : tidy cs = p ++ '$' :: ([] ++ c :: q) := by simpa using h.symm
      obtain ⟨before, rest, rfl, -, hrest⟩ := exists_of_tidy hdollar h
      obtain ⟨gap, after, rfl, hgap, -⟩ := exists_of_tidy hstart hrest
      exact ⟨before, gap, c, after, hc, hgap, .inl rfl⟩
    · have hstart := kept_of_isIdentifierStart hc
      have h : tidy cs = p ++ '$' :: ([] ++ '\x7b' :: ([] ++ c :: q)) := by simpa using h.symm
      obtain ⟨before, rest, rfl, -, hrest⟩ := exists_of_tidy hdollar h
      obtain ⟨gap, rest, rfl, hgap, hrest⟩ := exists_of_tidy hbrace hrest
      obtain ⟨gap', after, rfl, hgap', -⟩ := exists_of_tidy hstart hrest
      exact ⟨before, gap, c, after, hc, hgap, .inr ⟨gap', hgap', rfl⟩⟩
  · rintro ⟨before, gap, c, after, hc, hgap, rfl | ⟨gap', hgap', rfl⟩⟩
    · have hstart := kept_of_isIdentifierStart hc
      refine ⟨c, hc, .inl ⟨tidy before, tidy after, ?_⟩⟩
      rw [tidy_append_cons hdollar, tidy_append_cons hstart, hgap]
      simp
    · have hstart := kept_of_isIdentifierStart hc
      refine ⟨c, hc, .inr ⟨tidy before, tidy after, ?_⟩⟩
      rw [tidy_append_cons hdollar, tidy_append_cons hbrace, tidy_append_cons hstart, hgap, hgap']
      simp

theorem expandChars_of_not_refers (h : ¬Refers cs) (htidied : Tidied cs)
    (values : List (String × String)) : expandChars values cs = cs := by
  rw [expandChars_eq, resolveChars, replaceReferences_of_not_refers h,
    replaceReferences_of_not_refers h, htidied.tidy_eq]

theorem not_exposed_of_dollar_not_mem (h : '$' ∉ cs) : ¬Exposed cs := by
  rintro ⟨before, gap, c, after, -, -, rfl | ⟨gap', -, rfl⟩⟩
  · exact h (List.mem_append_right _ List.mem_cons_self)
  · exact h (List.mem_append_right _ List.mem_cons_self)

/--
An expanded value has no reference in it, and is not changed by expanding it again, just if no parts
of a reference are exposed once the references are dropped. None are if the value and those put into
it have no other dollar signs than those of references.
-/
theorem expanded_unreferring_iff (values : List (String × String)) (text : String) :
    (¬Refers (expandReferences values text).toList ∧
      (∀ others, expandReferences others (expandReferences values text) =
        expandReferences values text) ↔ ¬Exposed (resolveChars values text.toList)) ∧
    (¬Stray text.toList → (∀ name value, values.lookup name = some value → ¬Stray value.toList) →
      ¬Exposed (resolveChars values text.toList)) := by
  constructor
  · have htext : (expandReferences values text).toList =
        tidy (resolveChars values text.toList) := String.toList_ofList
    rw [htext, refers_tidy_iff, and_iff_left_iff_imp]
    intro h others
    rw [← refers_tidy_iff] at h
    rw [← String.toList_inj, expandReferences, String.toList_ofList, htext]
    exact expandChars_of_not_refers h (tidied_tidy _) others
  · intro htext hvalues
    refine not_exposed_of_dollar_not_mem (dollar_not_mem_dropped
      (not_stray_replaceReferences htext fun name => ?_))
    cases hvalue : values.lookup (String.ofList name) with
    | none => exact not_stray_nil
    | some value => exact hvalues _ _ hvalue

/-- A reference made up by the brackets that are tidied away stays. -/
theorem not_expanded_unreferring_brackets :
    Refers (expandReferences [] "$[]X").toList ∧
      expandReferences [] (expandReferences [] "$[]X") ≠ expandReferences [] "$[]X" := by
  have htidied : expandReferences [] "$[]X" = "$X" := by decide +kernel
  have hagain : expandReferences [] "$X" = "" := by decide +kernel
  rw [htidied, hagain]
  exact ⟨⟨'X', by decide, .inl ⟨[], [], rfl⟩⟩, by decide⟩

end EbuildAudit.Dependency
