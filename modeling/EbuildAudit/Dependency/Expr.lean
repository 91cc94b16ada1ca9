import EbuildAudit.Text.Basic

/-!
Dependency expressions: leaves and groups, written as words between white space. A group stands in
parentheses that are words of their own, after a word that says what the group asks for.
-/

namespace EbuildAudit.Dependency

open Text

inductive Group
  | allOf
  | anyOf
  | exactlyOne
  | atMostOne
  | conditional (flag : String) (negated : Bool)
  deriving DecidableEq, Repr

inductive Expr (α : Type)
  | leaf (value : α)
  | group (kind : Group) (members : List (Expr α))
  deriving Repr

def Group.flag? : Group → Option String
  | .conditional flag _ => some flag
  | _ => none

namespace Expr

mutual

def leaves : Expr α → List α
  | .leaf value => [value]
  | .group _ members => leavesOf members

def leavesOf : List (Expr α) → List α
  | [] => []
  | e :: es => e.leaves ++ leavesOf es

end

mutual

def conditionals : Expr α → List String
  | .leaf _ => []
  | .group kind members => kind.flag?.toList ++ conditionalsOf members

def conditionalsOf : List (Expr α) → List String
  | [] => []
  | e :: es => e.conditionals ++ conditionalsOf es

end

end Expr

inductive ExprError (ε : Type)
  | unexpected (word : String)
  | unbalanced
  | missingClose
  | expectedOpen (after : String)
  | emptyConditional (word : String)
  | badLeaf (cause : ε)
  deriving DecidableEq, Repr

def ExprError.message (leafMessage : ε → String) : ExprError ε → String
  | .unexpected word => "unexpected " ++ quoted word
  | .unbalanced => "unbalanced ')'"
  | .missingClose => "missing ')'"
  | .expectedOpen after => "expected '(' after " ++ quoted after
  | .emptyConditional word => "empty USE conditional " ++ quoted word
  | .badLeaf cause => leafMessage cause

inductive Word
  | opening
  | closing
  | introducing (kind : Group)
  | emptyConditional
  | leaf
  deriving DecidableEq, Repr

def Word.conditional (name : List Char) : Word :=
  let (negated, flag) :=
    match name with
    | '!' :: flag => (true, flag)
    | _ => (false, name)
  if flag.isEmpty then .emptyConditional
  else .introducing (.conditional (String.ofList flag) negated)

def Word.of (word : String) : Word :=
  match word with
  | "(" => .opening
  | ")" => .closing
  | "||" => .introducing .anyOf
  | "^^" => .introducing .exactlyOne
  | "??" => .introducing .atMostOne
  | word =>
    match word.toList.reverse with
    | '?' :: name => .conditional name.reverse
    | _ => .leaf

/--
The members of a group, up to the parenthesis that closes it, and the words after that; outside of
all groups, what stands before the end.
-/
def readMembers (leaf : String → Except ε α) (nested : Bool) (words : List String) :
    Except (ExprError ε) (List (Expr α) × { rest : List String // rest.length ≤ words.length }) :=
  match words with
  | [] => if nested then .error .missingClose else .ok ([], ⟨[], Nat.le_refl 0⟩)
  | word :: words =>
    match Word.of word with
    | .opening => do
      let (members, ⟨rest, _⟩) ← readMembers leaf true words
      let (others, ⟨rest, _⟩) ← readMembers leaf nested rest
      return (.group .allOf members :: others, ⟨rest, by simp only [List.length_cons]; omega⟩)
    | .closing => if nested then .ok ([], ⟨words, Nat.le_succ _⟩) else .error .unbalanced
    | .introducing kind =>
      match words with
      | "(" :: words => do
        let (members, ⟨rest, _⟩) ← readMembers leaf true words
        let (others, ⟨rest, _⟩) ← readMembers leaf nested rest
        return (.group kind members :: others, ⟨rest, by simp only [List.length_cons]; omega⟩)
      | _ => .error (.expectedOpen word)
    | .emptyConditional => .error (.emptyConditional word)
    | .leaf =>
      match leaf word with
      | .ok value => do
        let (others, ⟨rest, _⟩) ← readMembers leaf nested words
        return (.leaf value :: others, ⟨rest, by simp only [List.length_cons]; omega⟩)
      | .error cause => .error (.badLeaf cause)
termination_by words.length
decreasing_by
  all_goals simp only [List.length_cons]
  all_goals omega

def parseExpr (leaf : String → Except ε α) (s : String) : Except (ExprError ε) (List (Expr α)) := do
  let (members, rest) ← readMembers leaf false (words s)
  match rest.val with
  | [] => return members
  | word :: _ => .error (.unexpected word)

structure InvalidFlag where
  text : String
  deriving DecidableEq, Repr

def InvalidFlag.message (e : InvalidFlag) : String :=
  "invalid flag " ++ quoted e.text

def flagLeaf (s : String) : Except InvalidFlag String :=
  if (s.toList.dropWhile (· = '!')).isEmpty then .error ⟨s⟩ else .ok s

def parseRequiredUse (s : String) : Except (ExprError InvalidFlag) (List (Expr String)) :=
  parseExpr flagLeaf s

def requiredUseMessage (e : ExprError InvalidFlag) : String :=
  e.message InvalidFlag.message

end EbuildAudit.Dependency
