import EbuildAudit.Glob.Pattern
import Mathlib.Data.List.Basic

namespace EbuildAudit.Glob

variable {cs ending : List Char} {c : Char} {s : String}

def IsPlain (c : Char) : Prop :=
  c ≠ '?' ∧ c ≠ '*' ∧ c ≠ '['

instance : DecidablePred IsPlain :=
  fun _ => inferInstanceAs (Decidable (_ ∧ _))

theorem readTokens_plain (hcs : ∀ c ∈ cs, IsPlain c) (rest : List Char) (position : Nat)
    (previous : Option Char) (done : List Token) :
    ∃ position' previous', readTokens position previous done none (cs ++ rest) =
      readTokens position' previous' ((cs.map .char).reverse ++ done) none rest := by
  induction cs generalizing position previous done with
  | nil => exact ⟨position, previous, rfl⟩
  | cons c cs ih =>
    obtain ⟨hquestion, hstar, hbracket⟩ := hcs c List.mem_cons_self
    obtain ⟨position', previous', hread⟩ := ih (fun d hd => hcs d (List.mem_cons_of_mem c hd))
      (position + 1) (some c) (.char c :: done)
    have hstep : readTokens position previous done none (c :: (cs ++ rest)) =
        readTokens (position + 1) (some c) (.char c :: done) none (cs ++ rest) := by
      simp [readTokens, hstar, hbracket]
    refine ⟨position', previous', ?_⟩
    rw [List.cons_append, hstep, hread, List.map_cons, List.reverse_cons, List.append_assoc]
    rfl

namespace Pattern

def ofText (s : String) : Pattern :=
  ⟨s.toList.map .char⟩

theorem parse_plain (h : ∀ c ∈ s.toList, IsPlain c) : parse s = .ok (ofText s) := by
  obtain ⟨position, previous, hread⟩ := readTokens_plain h [] 0 none []
  rw [List.append_nil] at hread
  rw [parse, hread, readTokens, List.append_nil, List.reverse_reverse]
  rfl

theorem isRecursive_ofText (s : String) : (ofText s).isRecursive = false := by
  simp [isRecursive, ofText]

theorem literal?_ofText (s : String) : (ofText s).literal? = some s := by
  have hchars (cs : List Char) : (cs.map Token.char).mapM Token.char? = some cs := by
    induction cs with
    | nil => rfl
    | cons c cs ih => simp [Token.char?, ih]
  rw [literal?, ofText, hchars, Option.map_some, String.ofList_toList]

def ofEnding (ending : String) : Pattern :=
  ⟨.anySequence :: ending.toList.map .char⟩

theorem isRecursive_ofEnding (ending : String) : (ofEnding ending).isRecursive = false := by
  simp [isRecursive, ofEnding]

theorem literal?_ofEnding (ending : String) : (ofEnding ending).literal? = none := by
  simp [literal?, ofEnding, Token.char?]

end Pattern

theorem length_of_exhausted {anyCase : Bool}
    (h : matchTokens anyCase (ending.map .char) cs = .exhausted) : cs.length < ending.length := by
  induction ending generalizing cs with
  | nil => cases cs <;> cases h
  | cons c ending ih =>
    cases cs with
    | nil => simp
    | cons d cs =>
      simp only [List.map_cons, matchTokens] at h
      split at h
      · simpa using ih h
      · cases h

theorem matchTokens_self (anyCase : Bool) (cs : List Char) :
    matchTokens anyCase (cs.map .char) cs = .yes := by
  induction cs with
  | nil => rfl
  | cons c cs ih => simp [matchTokens, Token.accepts, ih]

theorem matchTokens_ending (anyCase : Bool) (before ending : List Char) :
    matchTokens anyCase (.anySequence :: ending.map .char) (before ++ ending) = .yes := by
  induction before with
  | nil => rw [List.nil_append, matchTokens, matchTokens_self]
  | cons c before ih =>
    rw [matchTokens]
    cases htry : matchTokens anyCase (ending.map .char) (c :: before ++ ending) with
    | yes => rfl
    | exhausted =>
      have hlength := length_of_exhausted htry
      simp only [List.length_append, List.length_cons] at hlength
      omega
    | no =>
      rw [matchTokens] at ih
      simpa [scan] using ih

theorem Pattern.matchesAnyCase_ofEnding (before ending : String) :
    (Pattern.ofEnding ending).matchesAnyCase (before ++ ending) = true := by
  rw [matchesAnyCase, ofEnding, String.toList_append, matchTokens_ending]
  rfl

end EbuildAudit.Glob
