import EbuildAudit.Dependency.Expr
import EbuildAudit.Proofs.Basic
import Mathlib.Data.List.Basic

/-!
The grammar of dependency expressions. A text is read exactly if its words are derived by the grammar
and its leaves are accepted. Nothing is lost: printed word by word, the expressions that were read are
the words of the text.
-/

namespace EbuildAudit.Dependency

open Text

def Group.introduction : Group → List String
  | .allOf => []
  | .anyOf => ["||"]
  | .exactlyOne => ["^^"]
  | .atMostOne => ["??"]
  | .conditional flag negated => [(if negated then "!" else "") ++ flag ++ "?"]

/--
A flag is not empty, what begins with an exclamation mark is negated, and two question marks alone
are no conditional.
-/
def Group.Proper : Group → Prop
  | .conditional flag negated =>
    flag ≠ "" ∧ (negated = false → flag.toList.head? ≠ some '!' ∧ flag ≠ "?")
  | _ => True

def Remains (word : String) : Prop :=
  word ≠ "(" ∧ word ≠ ")" ∧ ∀ kind : Group, kind.Proper → kind.introduction ≠ [word]

/-- A question mark without a flag is no leaf either. -/
def IsLeaf (word : String) : Prop :=
  Remains word ∧ word ≠ "?" ∧ word ≠ "!?"

/-- Sequences of leaves and groups, with a class of words that may be leaves. -/
inductive Derives (class_ : String → Prop) : List String → Prop
  | nil : Derives class_ []
  | leaf {word : String} {words : List String} :
    class_ word → Derives class_ words → Derives class_ (word :: words)
  | group {kind : Group} {members words : List String} :
    kind.Proper → Derives class_ members → Derives class_ words →
      Derives class_ (kind.introduction ++ "(" :: (members ++ ")" :: words))

inductive Reads {ε α : Type} (leaf : String → Except ε α) : List String → List (Expr α) → Prop
  | nil : Reads leaf [] []
  | leaf {word : String} {words : List String} {value : α} {es : List (Expr α)} :
    IsLeaf word → leaf word = .ok value → Reads leaf words es →
      Reads leaf (word :: words) (.leaf value :: es)
  | group {kind : Group} {inner words : List String} {members es : List (Expr α)} :
    kind.Proper → Reads leaf inner members → Reads leaf words es →
      Reads leaf (kind.introduction ++ "(" :: (inner ++ ")" :: words)) (.group kind members :: es)

variable {ε α : Type} {leaf : String → Except ε α} {word : String} {words rest : List String}
  {kind : Group} {es : List (Expr α)} {nested : Bool} {name : List Char}

namespace Word

inductive View : String → Word → Prop
  | opening : View "(" .opening
  | closing : View ")" .closing
  | introducing {kind : Group} {word : String} :
    kind.Proper → kind.introduction = [word] → View word (.introducing kind)
  | emptyConditional : View "?" .emptyConditional
  | emptyNegation : View "!?" .emptyConditional
  | leaf {word : String} : IsLeaf word → View word .leaf

theorem view_conditional (htext : word.toList = name ++ ['?']) (hne : word ≠ "??") :
    View word (Word.conditional name) := by
  simp only [Word.conditional]
  split
  case h_1 flag =>
    cases flag with
    | nil =>
      obtain rfl : word = "!?" := String.toList_inj.1 htext
      exact .emptyNegation
    | cons c flag =>
      refine .introducing ⟨?_, nofun⟩ ?_
      · simp
      · exact congrArg (fun w => [w]) (String.toList_inj.1 (by simp [htext]))
  case h_2 hnegated =>
    cases name with
    | nil =>
      obtain rfl : word = "?" := String.toList_inj.1 htext
      exact .emptyConditional
    | cons c flag =>
      refine .introducing ⟨?_, fun _ => ⟨?_, ?_⟩⟩ ?_
      · simp
      · intro hhead
        simp only [String.toList_ofList, List.head?_cons, Option.some.injEq] at hhead
        exact hnegated flag (by rw [hhead])
      · intro hmark
        have hname : c :: flag = ['?'] := String.ofList_inj.1 hmark
        exact hne (String.toList_inj.1 (by rw [htext, hname]; rfl))
      · exact congrArg (fun w => [w]) (String.toList_inj.1 (by simp [htext]))

theorem view (word : String) : View word (Word.of word) := by
  rw [Word.of.eq_def]
  split
  case h_1 => exact .opening
  case h_2 => exact .closing
  case h_3 => exact .introducing trivial rfl
  case h_4 => exact .introducing trivial rfl
  case h_5 => exact .introducing trivial rfl
  case h_6 _ hopening hclosing hany hone hmost =>
    split
    case h_1 name hname =>
      refine view_conditional ?_ hmost
      rw [← List.reverse_reverse word.toList, hname, List.reverse_cons]
    case h_2 hmark =>
      refine .leaf ⟨⟨hopening, hclosing, fun kind _ hkind => ?_⟩, ?_, ?_⟩
      · cases kind with
        | allOf => cases hkind
        | anyOf => exact hany (List.cons.inj hkind).1.symm
        | exactlyOne => exact hone (List.cons.inj hkind).1.symm
        | atMostOne => exact hmost (List.cons.inj hkind).1.symm
        | conditional flag negated =>
          have htext := (List.cons.inj hkind).1
          refine hmark ((if negated then "!" else "") ++ flag).toList.reverse ?_
          rw [← htext]
          simp
      · rintro rfl
        exact hmark [] rfl
      · rintro rfl
        exact hmark ['!'] rfl

theorem eq_of_opening (h : Word.of word = .opening) : word = "(" := by
  have hview := view word
  rw [h] at hview
  cases hview
  rfl

theorem eq_of_closing (h : Word.of word = .closing) : word = ")" := by
  have hview := view word
  rw [h] at hview
  cases hview
  rfl

theorem introduction_of (h : Word.of word = .introducing kind) :
    kind.Proper ∧ kind.introduction = [word] := by
  have hview := view word
  rw [h] at hview
  cases hview with
  | introducing hproper hword => exact ⟨hproper, hword⟩

theorem isLeaf_of (h : Word.of word = .leaf) : IsLeaf word := by
  have hview := view word
  rw [h] at hview
  cases hview with
  | leaf hleaf => exact hleaf

theorem of_isLeaf (h : IsLeaf word) : Word.of word = .leaf := by
  obtain ⟨⟨hopening, hclosing, hkinds⟩, hmark, hnegation⟩ := h
  have hview := view word
  generalize Word.of word = read at hview
  cases hview with
  | opening => exact absurd rfl hopening
  | closing => exact absurd rfl hclosing
  | introducing hproper hword => exact absurd hword (hkinds _ hproper)
  | emptyConditional => exact absurd rfl hmark
  | emptyNegation => exact absurd rfl hnegation
  | leaf => rfl

theorem conditional_flag {flag : String} {negated : Bool}
    (h : (Group.conditional flag negated).Proper) :
    Word.conditional ((if negated then "!" else "") ++ flag).toList =
      .introducing (.conditional flag negated) := by
  obtain ⟨hne, hplain⟩ := h
  cases negated with
  | true => simp [Word.conditional, hne]
  | false =>
    obtain ⟨hhead, -⟩ := hplain rfl
    simp only [Word.conditional, Bool.false_eq_true, if_false, String.empty_append]
    split
    case h_1 flag' hname => exact absurd (by rw [hname]; rfl) hhead
    case h_2 => simp [hne]

theorem of_question (hne : word ≠ "??") (h : word.toList = name ++ ['?']) :
    Word.of word = Word.conditional name := by
  have hlast : word.toList.getLast? = some '?' := by rw [h, List.getLast?_concat]
  rw [Word.of.eq_def]
  split
  case h_5 => exact absurd rfl hne
  case h_6 =>
    rw [h, List.reverse_concat]
    exact congrArg Word.conditional name.reverse_reverse
  all_goals exact absurd hlast (by decide)

theorem of_introduction (hproper : kind.Proper) (h : kind.introduction = [word]) :
    Word.of word = .introducing kind := by
  cases kind with
  | allOf => cases h
  | anyOf => rw [← (List.cons.inj h).1]; rfl
  | exactlyOne => rw [← (List.cons.inj h).1]; rfl
  | atMostOne => rw [← (List.cons.inj h).1]; rfl
  | conditional flag negated =>
    obtain rfl := (List.cons.inj h).1
    rw [of_question ?_ (by rw [String.toList_append]; rfl), conditional_flag hproper]
    intro hmark
    have hfront : ((if negated then "!" else "") ++ flag).toList = ['?'] := by
      have htext := congrArg String.toList hmark
      rw [String.toList_append] at htext
      exact List.append_cancel_right (htext : _ ++ ['?'] = ['?'] ++ ['?'])
    cases negated with
    | true => simp at hfront
    | false => exact (hproper.2 rfl).2 (String.toList_inj.1 (by simpa using hfront))

end Word

def Consumes (leaf : String → Except ε α) (nested : Bool) (words : List String)
    (es : List (Expr α)) (rest : List String) : Prop :=
  ∃ h, readMembers leaf nested words = .ok (es, ⟨rest, h⟩)

section

variable {members : List (Expr α)} {inner : List String}

theorem consumes_opening (hmembers : Consumes leaf true words members inner)
    (hothers : Consumes leaf nested inner es rest) :
    Consumes leaf nested ("(" :: words) (.group .allOf members :: es) rest := by
  obtain ⟨hle, hmembers⟩ := hmembers
  obtain ⟨hle', hothers⟩ := hothers
  refine ⟨Nat.le_trans hle' (Nat.le_trans hle (Nat.le_succ _)), ?_⟩
  rw [readMembers, show Word.of "(" = .opening from rfl]
  simp only [hmembers, hothers, bind, Except.bind, pure, Except.pure]

theorem consumes_introducing (hword : Word.of word = .introducing kind)
    (hmembers : Consumes leaf true words members inner)
    (hothers : Consumes leaf nested inner es rest) :
    Consumes leaf nested (word :: "(" :: words) (.group kind members :: es) rest := by
  obtain ⟨hle, hmembers⟩ := hmembers
  obtain ⟨hle', hothers⟩ := hothers
  refine ⟨Nat.le_trans hle' (Nat.le_trans hle (Nat.le_add_right _ 2)), ?_⟩
  rw [readMembers, hword]
  simp only [hmembers, hothers, bind, Except.bind, pure, Except.pure]

theorem consumes_group (hproper : kind.Proper) (hmembers : Consumes leaf true words members inner)
    (hothers : Consumes leaf nested inner es rest) :
    Consumes leaf nested (kind.introduction ++ "(" :: words) (.group kind members :: es) rest := by
  cases kind with
  | allOf => exact consumes_opening hmembers hothers
  | anyOf => exact consumes_introducing rfl hmembers hothers
  | exactlyOne => exact consumes_introducing rfl hmembers hothers
  | atMostOne => exact consumes_introducing rfl hmembers hothers
  | conditional flag negated =>
    exact consumes_introducing (Word.of_introduction hproper rfl) hmembers hothers

theorem consumes_leaf {value : α} (hleaf : IsLeaf word) (hvalue : leaf word = .ok value)
    (hothers : Consumes leaf nested words es rest) :
    Consumes leaf nested (word :: words) (.leaf value :: es) rest := by
  obtain ⟨hle, hothers⟩ := hothers
  refine ⟨Nat.le_trans hle (Nat.le_succ _), ?_⟩
  rw [readMembers, Word.of_isLeaf hleaf]
  simp only [hvalue, hothers, bind, Except.bind, pure, Except.pure]

theorem consumes_closing (words : List String) : Consumes leaf true (")" :: words) [] words := by
  refine ⟨Nat.le_succ _, ?_⟩
  rw [readMembers]
  rfl

theorem Reads.consumes (h : Reads leaf inner members) (hrest : Consumes leaf nested words es rest) :
    Consumes leaf nested (inner ++ words) (members ++ es) rest := by
  induction h generalizing nested words es rest with
  | nil => exact hrest
  | leaf hleaf hvalue _ ih => exact consumes_leaf hleaf hvalue (ih hrest)
  | @group kind inner others _ _ hproper _ _ ihmembers ihothers =>
    have hmembers := ihmembers (consumes_closing (others ++ words))
    rw [List.append_nil] at hmembers
    simp only [List.append_assoc, List.cons_append]
    exact consumes_group hproper hmembers (ihothers hrest)

end

def Stops (leaf : String → Except ε α) (nested : Bool) (words : List String) (es : List (Expr α))
    (rest : List String) : Prop :=
  ∃ inner, Reads leaf inner es ∧ (words = inner ++ if nested then ")" :: rest else []) ∧
    (nested = false → rest = [])

theorem stops_group {members : List (Expr α)} {inner : List String} (hproper : kind.Proper)
    (hmembers : Stops leaf true words members inner) (hothers : Stops leaf nested inner es rest) :
    Stops leaf nested (kind.introduction ++ "(" :: words) (.group kind members :: es) rest := by
  obtain ⟨inner, hmembers, rfl, -⟩ := hmembers
  obtain ⟨others, hothers, rfl, hrest⟩ := hothers
  refine ⟨_, .group hproper hmembers hothers, ?_, hrest⟩
  simp

theorem stops_of_consumes (h : Consumes leaf nested words es rest) : Stops leaf nested words es rest := by
  -- The cases are those of the recursion; the ones that end in an error give no members.
  obtain ⟨hle, h⟩ := h
  induction nested, words using readMembers.induct leaf generalizing es rest with
  | case1 =>
    rw [readMembers] at h
    cases h
  | case2 nested hnested =>
    rw [readMembers, if_neg hnested] at h
    cases h
    exact ⟨[], .nil, (if_neg hnested).symm, fun _ => rfl⟩
  | case3 nested word words hword ihmembers ihothers =>
    rw [readMembers, hword] at h
    obtain ⟨⟨members, inner, hinner⟩, hmembers, h⟩ := exists_of_bind_eq_ok h
    obtain ⟨⟨others, rest', hrest⟩, hothers, h⟩ := exists_of_bind_eq_ok h
    cases h
    obtain rfl := Word.eq_of_opening hword
    exact stops_group (show Group.allOf.Proper from trivial) (ihmembers _ hmembers)
      (ihothers _ hinner _ hothers)
  | case4 word words hword =>
    rw [readMembers, hword] at h
    cases h
    obtain rfl := Word.eq_of_closing hword
    exact ⟨[], .nil, rfl, nofun⟩
  | case5 nested word words hword hnested =>
    rw [readMembers, hword] at h
    simp only [if_neg hnested] at h
    cases h
  | case6 nested word kind hword words ihmembers ihothers =>
    rw [readMembers, hword] at h
    obtain ⟨⟨members, inner, hinner⟩, hmembers, h⟩ := exists_of_bind_eq_ok h
    obtain ⟨⟨others, rest', hrest⟩, hothers, h⟩ := exists_of_bind_eq_ok h
    cases h
    obtain ⟨hproper, hintroduction⟩ := Word.introduction_of hword
    have hstops := stops_group hproper (ihmembers _ hmembers) (ihothers _ hinner _ hothers)
    rwa [hintroduction] at hstops
  | case7 nested word words kind hword hopening =>
    rw [readMembers, hword] at h
    simp only at h
    cases h
  | case8 nested word words hword =>
    rw [readMembers, hword] at h
    cases h
  | case9 nested word words hword value hvalue ih =>
    rw [readMembers, hword] at h
    simp only [hvalue] at h
    obtain ⟨⟨others, rest', hle'⟩, hothers, h⟩ := exists_of_bind_eq_ok h
    cases h
    obtain ⟨inner, hreads, hwords, hrest⟩ := ih _ hothers
    exact ⟨word :: inner, .leaf (Word.isLeaf_of hword) hvalue hreads,
      congrArg (word :: ·) hwords, hrest⟩
  | case10 nested word words hword cause hcause =>
    rw [readMembers, hword] at h
    simp only [hcause] at h
    cases h

theorem readMembers_ne_unexpected (nested : Bool) (words : List String) :
    readMembers leaf nested words ≠ .error (.unexpected word) := by
  intro h
  induction nested, words using readMembers.induct leaf with
  | case1 =>
    rw [readMembers] at h
    cases h
  | case2 nested hnested =>
    rw [readMembers, if_neg hnested] at h
    cases h
  | case3 nested word words hword ihmembers ihothers =>
    rw [readMembers, hword] at h
    rcases of_bind_eq_error h with h | ⟨⟨members, inner, hinner⟩, -, h⟩
    · exact ihmembers h
    rcases of_bind_eq_error h with h | ⟨⟨others, rest, hrest⟩, -, h⟩
    · exact ihothers inner hinner h
    · cases h
  | case4 word words hword =>
    rw [readMembers, hword] at h
    cases h
  | case5 nested word words hword hnested =>
    rw [readMembers, hword] at h
    simp only [if_neg hnested] at h
    cases h
  | case6 nested word kind hword words ihmembers ihothers =>
    rw [readMembers, hword] at h
    rcases of_bind_eq_error h with h | ⟨⟨members, inner, hinner⟩, -, h⟩
    · exact ihmembers h
    rcases of_bind_eq_error h with h | ⟨⟨others, rest, hrest⟩, -, h⟩
    · exact ihothers inner hinner h
    · cases h
  | case7 nested word words kind hword hopening =>
    rw [readMembers, hword] at h
    simp only at h
    cases h
  | case8 nested word words hword =>
    rw [readMembers, hword] at h
    cases h
  | case9 nested word words hword value hvalue ih =>
    rw [readMembers, hword] at h
    simp only [hvalue] at h
    rcases of_bind_eq_error h with h | ⟨⟨others, rest, hrest⟩, -, h⟩
    · exact ih h
    · cases h
  | case10 nested word words hword cause hcause =>
    rw [readMembers, hword] at h
    simp only [hcause] at h
    cases h

theorem parseExpr_eq_ok_iff {s : String} :
    parseExpr leaf s = .ok es ↔ Reads leaf (Text.words s) es := by
  constructor
  · intro h
    obtain ⟨⟨members, rest, hle⟩, hmembers, h⟩ := exists_of_bind_eq_ok h
    obtain ⟨inner, hreads, hwords, hrest⟩ := stops_of_consumes ⟨hle, hmembers⟩
    obtain rfl := hrest rfl
    cases h
    rwa [hwords, if_neg Bool.false_ne_true, List.append_nil]
  · intro h
    have hnil : Consumes leaf false [] [] [] := ⟨Nat.le_refl 0, by rw [readMembers]; rfl⟩
    have hconsumes := h.consumes hnil
    rw [List.append_nil, List.append_nil] at hconsumes
    obtain ⟨hle, hconsumes⟩ := hconsumes
    rw [parseExpr, hconsumes]
    rfl

end EbuildAudit.Dependency
