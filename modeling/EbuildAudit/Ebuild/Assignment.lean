import EbuildAudit.Dependency.Reference
import EbuildAudit.Text.Basic

namespace EbuildAudit.Ebuild

open Text

inductive Statement
  | inheriting (eclasses : List String)
  | assign (name : String) (append : Bool) (value : List Char) (line : Nat)
  deriving DecidableEq, Repr

inductive LineStart
  | inheriting (eclasses : List String)
  | assign (name : List Char) (append : Bool) (rest : List Char)
  | other
  deriving DecidableEq, Repr

def assignmentStart (cs : List Char) : LineStart :=
  match Dependency.takeIdentifier cs with
  | ([], _) => .other
  | (name, '=' :: rest) => .assign name false rest
  | (name, '+' :: '=' :: rest) => .assign name true rest
  | _ => .other

def lineStart (line : List Char) : LineStart :=
  match "inherit".toList.isPrefixOf? line with
  | some (c :: cs) =>
    if isBlank c then
      .inheriting (words (String.ofList (cs.takeWhile fun c => c != '#' && c != ';')))
    else assignmentStart line
  | _ => assignmentStart line

/-- The text before the closing quote. Within double quotes a backslash hides the next character. -/
def beforeClosing? (quote : Char) : List Char → Option (List Char)
  | [] => none
  | [c] => if c = quote then some [] else none
  | c :: d :: cs =>
    if quote = '"' ∧ c = '\\' then (beforeClosing? quote cs).map fun before => c :: d :: before
    else if c = quote then some []
    else (beforeClosing? quote (d :: cs)).map (c :: ·)

structure OpenValue where
  name : List Char
  append : Bool
  line : Nat
  quote : Char
  collected : List Char

def OpenValue.finish (o : OpenValue) (last : List Char) : Statement :=
  .assign (String.ofList o.name) o.append (o.collected ++ last) o.line

def startValue (name : List Char) (append : Bool) (number : Nat) :
    List Char → Statement ⊕ (OpenValue × List Char)
  | c :: cs =>
    if c = '"' ∨ c = '\'' then .inr (⟨name, append, number, c, []⟩, cs)
    else .inl (unquoted (c :: cs))
  | [] => .inl (unquoted [])
where
  unquoted (cs : List Char) : Statement :=
    .assign (String.ofList name) append ((words (String.ofList cs)).headD "").toList number

/--
The statements of lines of which the first has the given number. A value that never ends is an error
and names its variable.
-/
def readLines (number : Nat) : Option OpenValue → List (List Char) → Except String (List Statement)
  | none, [] => .ok []
  | some o, [] => .error (String.ofList o.name)
  | some o, line :: lines => continueValue o line lines
  | none, line :: lines =>
    match lineStart line with
    | .inheriting eclasses => do
      return .inheriting eclasses :: (← readLines (number + 1) none lines)
    | .assign name append rest =>
      match startValue name append number rest with
      | .inl statement => do return statement :: (← readLines (number + 1) none lines)
      | .inr (o, chunk) => continueValue o chunk lines
    | .other => readLines (number + 1) none lines
where
  continueValue (o : OpenValue) (chunk : List Char) (lines : List (List Char)) :
      Except String (List Statement) :=
    match beforeClosing? o.quote chunk with
    | some last => do return o.finish last :: (← readLines (number + 1) none lines)
    | none =>
      readLines (number + 1) (some { o with collected := o.collected ++ chunk ++ ['\n'] }) lines

def statements (text : String) : Except String (List Statement) :=
  readLines 1 none (lineLists text.toList)

end EbuildAudit.Ebuild
