import EbuildAudit.Dependency.Expr
import EbuildAudit.Text.Basic
import EbuildAudit.Version

namespace EbuildAudit.Dependency

open Text

inductive Operator
  | less
  | lessEq
  | equal
  /-- An equals sign before and a star after: every version that begins with this text. -/
  | equalGlob
  | approx
  | greaterEq
  | greater
  deriving DecidableEq, Repr

inductive UseDefault
  | enabled
  | disabled
  deriving DecidableEq, Repr

structure UseDep where
  flag : String
  default : Option UseDefault
  conditional : Bool
  negated : Bool
  deriving DecidableEq, Repr

structure Atom where
  blocker : Bool
  operator : Option Operator
  category : String
  package : String
  version : Option Version
  slot : Option String
  useDeps : List UseDep
  deriving DecidableEq, Repr

inductive AtomFault
  | unterminatedUseDep
  | badUseDep
  | globWithoutEqual
  | missingVersion
  | malformedName
  deriving DecidableEq, Repr

def AtomFault.message : AtomFault → String
  | .unterminatedUseDep => "unterminated use dependency"
  | .badUseDep => "bad use dependency"
  | .globWithoutEqual => "glob suffix requires '='"
  | .missingVersion => "missing version"
  | .malformedName => "malformed name"

structure AtomError where
  text : String
  fault : AtomFault
  deriving DecidableEq, Repr

def AtomError.message (e : AtomError) : String :=
  "invalid atom " ++ quoted e.text ++ ": " ++ e.fault.message

def isFlagChar (c : Char) : Bool :=
  c.isAlphanum || c == '+' || c == '_' || c == '@' || c == '-'

namespace UseDep

def takeNegation : List Char → Bool × List Char
  | '!' :: cs => (true, cs)
  | '-' :: cs => (true, cs)
  | cs => (false, cs)

def takeCondition : List Char → Bool × List Char
  | '?' :: cs => (true, cs)
  | '=' :: cs => (true, cs)
  | cs => (false, cs)

def takeDefault : List Char → Option UseDefault × List Char
  | ')' :: '+' :: '(' :: cs => (some .enabled, cs)
  | ')' :: '-' :: '(' :: cs => (some .disabled, cs)
  | cs => (none, cs)

def parse? (entry : List Char) : Option UseDep :=
  let (negated, rest) := takeNegation (trimWhile isBlank entry)
  let (conditional, rest) := takeCondition rest.reverse
  let (default, rest) := takeDefault rest
  if rest.isEmpty || !rest.all isFlagChar then none
  else some { flag := String.ofList rest.reverse, default, conditional, negated }

end UseDep

namespace Atom

def key (a : Atom) : String :=
  a.category ++ "/" ++ a.package

def cutUseDeps (cs : List Char) : Except AtomFault (List Char × List UseDep) :=
  match cutAt? ['['] cs with
  | none => .ok (cs, [])
  | some (before, after) =>
    match after.reverse with
    | ']' :: inner =>
      match (inner.reverse.splitOn ',').mapM UseDep.parse? with
      | some deps => .ok (before, deps)
      | none => .error .badUseDep
    | _ => .error .unterminatedUseDep

def cutSlot (cs : List Char) : List Char × Option String :=
  match cutAt? [':'] cs with
  | none => (cs, none)
  | some (before, after) =>
    match cutAt? [':', ':'] after with
    | none => (before, some (String.ofList after))
    | some (slot, _) => (before, some (String.ofList slot))

def takeOperator : List Char → Option Operator × List Char
  | '>' :: '=' :: cs => (some .greaterEq, cs)
  | '<' :: '=' :: cs => (some .lessEq, cs)
  | '=' :: cs => (some .equal, cs)
  | '~' :: cs => (some .approx, cs)
  | '<' :: cs => (some .less, cs)
  | '>' :: cs => (some .greater, cs)
  | cs => (none, cs)

def takeStar (op : Operator) (cs : List Char) : Except AtomFault (Operator × List Char) :=
  match cs.reverse with
  | '*' :: rest => if op = .equal then .ok (.equalGlob, rest.reverse) else .error .globWithoutEqual
  | _ => .ok (op, cs)

def isNameStart (c : Char) : Bool :=
  c.isAlphanum || c == '_'

def isPackageChar (c : Char) : Bool :=
  isNameStart c || c == '+' || c == '-'

def isCategoryChar (c : Char) : Bool :=
  isPackageChar c || c == '.'

def isName (inner : Char → Bool) : List Char → Bool
  | c :: cs => isNameStart c && cs.all inner
  | [] => false

def splitName (cs : List Char) : Except AtomFault (String × String) :=
  match cutAt? ['/'] cs with
  | some (category, package) =>
    if isName isCategoryChar category && isName isPackageChar package then
      .ok (String.ofList category, String.ofList package)
    else .error .malformedName
  | none => .error .malformedName

def splitVersion (cs : List Char) : Except AtomFault (List Char × Version) :=
  match Version.splitFrom cs.reverse [] with
  | some split => .ok split
  | none => .error .missingVersion

def ofChars (cs : List Char) : Except AtomFault Atom := do
  let blocker := cs.head? = some '!'
  let (rest, useDeps) ← cutUseDeps (cs.dropWhile (· = '!'))
  let (rest, slot) := cutSlot rest
  match takeOperator rest with
  | (some op, rest) =>
    let (op, rest) ← takeStar op rest
    let (name, version) ← splitVersion rest
    let (category, package) ← splitName name
    return {
      blocker, operator := some op, category, package, version := some version, slot, useDeps }
  | (none, rest) =>
    let (category, package) ← splitName rest
    return { blocker, operator := none, category, package, version := none, slot, useDeps }

def parse (s : String) : Except AtomError Atom :=
  match ofChars s.toList with
  | .ok atom => .ok atom
  | .error fault => .error ⟨s, fault⟩

def matchesVersion (a : Atom) (v : Version) : Bool :=
  match a.operator, a.version with
  | some op, some wanted =>
    match op with
    | .less => v.order wanted == .lt
    | .lessEq => v.order wanted != .gt
    | .equal => v.order wanted == .eq
    | .equalGlob => wanted.text.toList.isPrefixOf v.text.toList
    | .approx => v.base == wanted.base
    | .greaterEq => v.order wanted != .lt
    | .greater => v.order wanted == .gt
  | _, _ => true

end Atom

def parseDepend (s : String) : Except (ExprError AtomError) (List (Expr Atom)) :=
  parseExpr Atom.parse s

def dependMessage (e : ExprError AtomError) : String :=
  e.message AtomError.message

end EbuildAudit.Dependency
