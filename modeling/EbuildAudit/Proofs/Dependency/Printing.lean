import EbuildAudit.Proofs.Dependency.Grammar
import EbuildAudit.Proofs.Text.Pieces

namespace EbuildAudit.Dependency

open Text

namespace Expr

variable {α β : Type}

mutual

def map (f : α → β) : Expr α → Expr β
  | .leaf value => .leaf (f value)
  | .group kind members => .group kind (mapOf f members)

def mapOf (f : α → β) : List (Expr α) → List (Expr β)
  | [] => []
  | e :: es => e.map f :: mapOf f es

end

mutual

def print (f : α → String) : Expr α → List String
  | .leaf value => [f value]
  | .group kind members => kind.introduction ++ "(" :: (printOf f members ++ [")"])

def printOf (f : α → String) : List (Expr α) → List String
  | [] => []
  | e :: es => e.print f ++ printOf f es

end

end Expr

open Dependency.Expr

/-- The flag of a word that ends in a question mark, without one exclamation mark before it. -/
def flagOf? (word : String) : Option String :=
  (stripEnd? "?" word).bind fun name =>
    let flag := (stripStart? "!" name).getD name
    if word = "??" ∨ flag = "" then none else some flag

instance : DecidablePred IsLeaf :=
  fun _ => decidable_of_iff _ ⟨Word.isLeaf_of, Word.of_isLeaf⟩

variable {ε α : Type} {leaf : String → Except ε α} {word : String} {words : List String}
  {kind : Group} {es : List (Expr α)}

theorem introduction_eq_of_mem (h : word ∈ kind.introduction) : kind.introduction = [word] := by
  cases kind with
  | allOf => cases h
  | _ => rw [List.mem_singleton.1 h]; rfl

theorem stripStart?_mark_eq_none_iff {name : String} :
    stripStart? "!" name = none ↔ name.toList.head? ≠ some '!' := by
  rw [stripStart?, Option.map_eq_none_iff]
  cases name.toList with
  | nil => exact iff_of_true rfl (Option.some_ne_none '!').symm
  | cons c cs =>
    by_cases hc : c = '!'
    · subst hc
      exact iff_of_false (Option.some_ne_none cs) fun h => h rfl
    · have hfirst : List.isPrefixOf? ['!'] (c :: cs) = none :=
        if_neg fun h => hc (beq_iff_eq.1 h).symm
      exact iff_of_true hfirst fun h => hc (Option.some_inj.1 h)

theorem flagOf?_eq_some_iff {flag : String} :
    flagOf? word = some flag ↔ ∃ negated, (Group.conditional flag negated).Proper ∧
      (Group.conditional flag negated).introduction = [word] := by
  constructor
  · intro h
    obtain ⟨name, hname, h⟩ := Option.bind_eq_some_iff.1 h
    obtain rfl := stripEnd?_eq_some_iff.1 hname
    obtain ⟨hword, hflag⟩ := Option.ite_none_left_eq_some.1 h
    obtain ⟨hmarks, hne⟩ := not_or.1 hword
    obtain rfl := Option.some_inj.1 hflag
    cases hstart : stripStart? "!" name with
    | none =>
      rw [hstart] at hne
      refine ⟨false, ⟨hne, fun _ => ⟨stripStart?_mark_eq_none_iff.1 hstart, ?_⟩⟩, ?_⟩
      · rintro rfl
        exact hmarks rfl
      · simp [Group.introduction]
    | some flag =>
      rw [hstart] at hne
      obtain rfl := stripStart?_eq_some_iff.1 hstart
      exact ⟨true, ⟨hne, nofun⟩, rfl⟩
  · rintro ⟨negated, ⟨hne, hplain⟩, h⟩
    obtain rfl := (List.cons.inj h).1
    rw [flagOf?, stripEnd?_eq_some_iff.2 rfl, Option.bind_some]
    cases negated with
    | true =>
      rw [if_pos rfl, stripStart?_eq_some_iff.2 rfl]
      refine if_neg (not_or.2 ⟨fun hmarks => ?_, hne⟩)
      have hchars := congrArg String.toList hmarks
      rw [String.toList_append, String.toList_append] at hchars
      exact absurd (List.cons.inj hchars).1 (by decide)
    | false =>
      obtain ⟨hhead, hmark⟩ := hplain rfl
      rw [if_neg Bool.false_ne_true, String.empty_append, stripStart?_mark_eq_none_iff.2 hhead]
      refine if_neg (not_or.2 ⟨fun hmarks => hmark ?_, hne⟩)
      have hchars := congrArg String.toList hmarks
      rw [String.toList_append] at hchars
      exact String.toList_inj.1 (List.append_cancel_right (hchars : _ ++ ['?'] = ['?'] ++ ['?']))

theorem flagOf?_introduction (hproper : kind.Proper) :
    kind.introduction.filterMap flagOf? = kind.flag?.toList := by
  cases kind with
  | conditional flag negated =>
    exact List.filterMap_cons_some (flagOf?_eq_some_iff.2 ⟨negated, hproper, rfl⟩)
  | _ => decide

theorem flagOf?_of_isLeaf (h : IsLeaf word) : flagOf? word = none := by
  refine Option.eq_none_iff_forall_ne_some.2 fun flag hflag => ?_
  obtain ⟨negated, hproper, hword⟩ := flagOf?_eq_some_iff.1 hflag
  exact h.1.2.2 _ hproper hword

theorem filter_introduction (hproper : kind.Proper) : kind.introduction.filter IsLeaf = [] := by
  refine List.filter_eq_nil_iff.2 fun word hword => ?_
  rw [decide_eq_true_eq]
  exact fun hleaf => hleaf.1.2.2 kind hproper (introduction_eq_of_mem hword)

namespace Reads

theorem derives (h : Reads leaf words es) : Derives IsLeaf words := by
  induction h with
  | nil => exact .nil
  | leaf hleaf _ _ ih => exact .leaf hleaf ih
  | group hproper _ _ ihmembers ih => exact .group hproper ihmembers ih

theorem leaves (h : Reads leaf words es) :
    (words.filter IsLeaf).map leaf = (leavesOf es).map .ok := by
  induction h with
  | nil => rfl
  | leaf hleaf hvalue _ ih =>
    rw [List.filter_cons_of_pos (by exact decide_eq_true hleaf), List.map_cons, hvalue, ih]
    rfl
  | group hproper _ _ ihmembers ih =>
    rw [List.filter_append, filter_introduction hproper, List.nil_append,
      List.filter_cons_of_neg (by decide), List.filter_append,
      List.filter_cons_of_neg (by decide), List.map_append, ihmembers, ih, ← List.map_append]
    rfl

theorem conditionals (h : Reads leaf words es) : conditionalsOf es = words.filterMap flagOf? := by
  induction h with
  | nil => rfl
  | leaf hleaf _ _ ih =>
    rw [List.filterMap_cons_none (flagOf?_of_isLeaf hleaf), ← ih]
    rfl
  | group hproper _ _ ihmembers ih =>
    rw [List.filterMap_append, flagOf?_introduction hproper, List.filterMap_cons_none (by decide),
      List.filterMap_append, List.filterMap_cons_none (by decide), ← ihmembers, ← ih]
    exact List.append_assoc _ _ _

theorem exists_annotated (h : Reads leaf words es) :
    ∃ tree : List (Expr (String × α)), mapOf Prod.snd tree = es ∧
      printOf Prod.fst tree = words ∧ ∀ entry ∈ leavesOf tree, leaf entry.1 = .ok entry.2 := by
  induction h with
  | nil => exact ⟨[], rfl, rfl, nofun⟩
  | @leaf word words value es _ hvalue _ ih =>
    obtain ⟨tree, rfl, rfl, haccepted⟩ := ih
    refine ⟨.leaf (word, value) :: tree, rfl, rfl, ?_⟩
    rintro entry (_ | ⟨_, hentry⟩)
    · exact hvalue
    · exact haccepted entry hentry
  | @group kind _ _ _ _ _ _ _ ihmembers ih =>
    obtain ⟨members, rfl, rfl, hmembers⟩ := ihmembers
    obtain ⟨tree, rfl, rfl, haccepted⟩ := ih
    refine ⟨.group kind members :: tree, rfl, ?_, ?_⟩
    · simp [printOf, Expr.print]
    · intro entry hentry
      rcases List.mem_append.1 hentry with hentry | hentry
      · exact hmembers entry hentry
      · exact haccepted entry hentry

end Reads

theorem Derives.exists_reads (h : Derives IsLeaf words)
    (haccepted : ∀ word ∈ words, IsLeaf word → ∃ value, leaf word = .ok value) :
    ∃ es, Reads leaf words es := by
  induction h with
  | nil => exact ⟨[], .nil⟩
  | leaf hleaf _ ih =>
    obtain ⟨value, hvalue⟩ := haccepted _ List.mem_cons_self hleaf
    obtain ⟨es, hreads⟩ := ih fun word hword => haccepted word (List.mem_cons_of_mem _ hword)
    exact ⟨_, .leaf hleaf hvalue hreads⟩
  | group hproper _ _ ihmembers ih =>
    obtain ⟨members, hmembers⟩ := ihmembers fun word hword => haccepted word (by simp [hword])
    obtain ⟨es, hreads⟩ := ih fun word hword => haccepted word (by simp [hword])
    exact ⟨_, .group hproper hmembers hreads⟩

theorem Reads.accepted (h : Reads leaf words es) (hword : word ∈ words) (hleaf : IsLeaf word) :
    ∃ value, leaf word = .ok value := by
  have hmem : leaf word ∈ (words.filter IsLeaf).map leaf :=
    List.mem_map_of_mem (List.mem_filter.2 ⟨hword, by exact decide_eq_true hleaf⟩)
  rw [h.leaves] at hmem
  obtain ⟨value, -, hvalue⟩ := List.mem_map.1 hmem
  exact ⟨value, hvalue.symm⟩

/--
A text is read exactly if its words are derived and its leaves are accepted. Then the expressions
print as its words, and have its leaves and its flags in document order. Nothing is ever left over.
-/
theorem parseExpr_exact (leaf : String → Except ε α) (s : String) :
    ((∃ es, parseExpr leaf s = .ok es) ↔ Derives IsLeaf (Text.words s) ∧
      ∀ word ∈ Text.words s, IsLeaf word → ∃ value, leaf word = .ok value) ∧
    (∀ es, parseExpr leaf s = .ok es →
      (∃ tree : List (Expr (String × α)), mapOf Prod.snd tree = es ∧
        printOf Prod.fst tree = Text.words s ∧ ∀ entry ∈ leavesOf tree, leaf entry.1 = .ok entry.2) ∧
      ((Text.words s).filter IsLeaf).map leaf = (leavesOf es).map .ok ∧
      conditionalsOf es = (Text.words s).filterMap flagOf?) ∧
    ∀ word, parseExpr leaf s ≠ .error (.unexpected word) := by
  refine ⟨⟨?_, ?_⟩, fun es h => ?_, fun word h => ?_⟩
  · rintro ⟨es, h⟩
    have hreads := parseExpr_eq_ok_iff.1 h
    exact ⟨hreads.derives, fun word => hreads.accepted⟩
  · rintro ⟨hderives, haccepted⟩
    obtain ⟨es, hreads⟩ := hderives.exists_reads haccepted
    exact ⟨es, parseExpr_eq_ok_iff.2 hreads⟩
  · have hreads := parseExpr_eq_ok_iff.1 h
    exact ⟨hreads.exists_annotated, hreads.leaves, hreads.conditionals⟩
  · rcases of_bind_eq_error h with h | ⟨⟨members, rest, hle⟩, hmembers, h⟩
    · exact readMembers_ne_unexpected false _ h
    · -- Outside of all groups nothing ends the members but the end of the words.
      obtain ⟨-, -, -, hrest⟩ := stops_of_consumes ⟨hle, hmembers⟩
      obtain rfl := hrest rfl
      cases h

theorem parseExpr_exact_negated :
    parseRequiredUse "!x? ( a ) b" =
      .ok [.group (.conditional "x" true) [.leaf "a"], .leaf "b"] ∧
    ((Text.words "!x? ( a ) b").filter IsLeaf).map flagLeaf = [.ok "a", .ok "b"] := by
  have hproper : (Group.conditional "x" true).Proper := ⟨by decide, nofun⟩
  have hmember : Reads flagLeaf ["a"] [.leaf "a"] := .leaf (by decide) rfl .nil
  have hreads : Reads flagLeaf (Text.words "!x? ( a ) b")
      [.group (.conditional "x" true) [.leaf "a"], .leaf "b"] :=
    .group hproper hmember (.leaf (by decide) rfl .nil)
  have hparse := parseExpr_eq_ok_iff.2 hreads
  exact ⟨hparse, ((parseExpr_exact flagLeaf "!x? ( a ) b").2.1 _ hparse).2.1⟩

theorem not_parseExpr_exact_questionMark :
    Derives Remains (Text.words "?") ∧
    (∀ word ∈ Text.words "?", Remains word → ∃ value, flagLeaf word = .ok value) ∧
    parseRequiredUse "?" = .error (.emptyConditional "?") := by
  have hwords : Text.words "?" = ["?"] := by decide
  have hremains : Remains "?" := by
    refine ⟨by decide, by decide, fun kind hproper hword => ?_⟩
    cases Word.of_introduction hproper hword
  refine ⟨?_, ?_, ?_⟩
  · rw [hwords]
    exact .leaf hremains .nil
  · rw [hwords]
    intro word hword _
    obtain rfl := List.mem_singleton.1 hword
    exact ⟨"?", rfl⟩
  · have herror : readMembers flagLeaf false (Text.words "?") = .error (.emptyConditional "?") := by
      rw [hwords, readMembers]
      rfl
    rw [parseRequiredUse, parseExpr, herror]
    rfl

end EbuildAudit.Dependency
