import EbuildAudit.Text.Basic
import EbuildAudit.Text.Character

namespace EbuildAudit

open Text

inductive SuffixKind
  | alpha
  | beta
  | pre
  | rc
  | p
  deriving DecidableEq, Repr

def SuffixKind.rank : SuffixKind → Nat
  | .alpha => 0
  | .beta => 1
  | .pre => 2
  | .rc => 3
  | .p => 4

structure Suffix where
  kind : SuffixKind
  number : Nat
  deriving DecidableEq, Repr

structure Version where
  text : String
  /-- The text without the revision. -/
  base : String
  components : List (List Char)
  letter : Option Char
  suffixes : List Suffix
  revision : Nat
  deriving DecidableEq, Repr

namespace Version

/-- Suffix numbers and revisions at or above this bound count as zero. -/
def numberBound : Nat := 0x10000000000000000

def numberValue (digits : List Char) : Nat :=
  (boundedDigits? numberBound digits).getD 0

def suffixNames : List (List Char × SuffixKind) :=
  [("alpha".toList, .alpha), ("beta".toList, .beta), ("pre".toList, .pre), ("rc".toList, .rc),
    ("p".toList, .p)]

def suffix? (cs : List Char) : Option Suffix :=
  (suffixNames.find? fun (name, _) =>
    match name.isPrefixOf? cs with
    | some rest => rest.all isDecimalDigit
    | none => false).map fun _ =>
    { kind := (suffixNames.lookup (cs.takeWhile (!·.isDigit))).getD .p
      number := numberValue (cs.dropWhile (!·.isDigit)) }

def isLetter (c : Char) : Bool :=
  'a' ≤ c && c ≤ 'z'

def takeLetter : List Char → Option Char × List Char
  | c :: cs => if isLetter c then (some c, cs) else (none, c :: cs)
  | [] => (none, [])

def suffixes? : List Char → Option (List Suffix)
  | [] => some []
  | '_' :: cs => (cs.splitOn '_').mapM suffix?
  | _ => none

def revision? : List Char → Option (List Char)
  | [] => some []
  | '-' :: 'r' :: digits =>
    if digits.isEmpty || !digits.all isDecimalDigit then none else some digits
  | _ => none

def isComponentChar (c : Char) : Bool :=
  isDecimalDigit c || c == '.'

def ofChars? (cs : List Char) : Option Version :=
  let components := (cs.takeWhile isComponentChar).splitOn '.'
  let (letter, rest) := takeLetter (cs.dropWhile isComponentChar)
  let revisionText := rest.dropWhile (· != '-')
  if components.any (·.isEmpty) then none
  else
    match suffixes? (rest.takeWhile (· != '-')), revision? revisionText with
    | some suffixes, some digits =>
      some {
        text := String.ofList cs
        base := String.ofList (cs.take (cs.length - revisionText.length))
        components
        letter
        suffixes
        revision := numberValue digits }
    | _, _ => none

def parse? (s : String) : Option Version :=
  ofChars? s.toList

def compareNumbers (a b : List Char) : Ordering :=
  let a := a.dropWhile (· = '0')
  let b := b.dropWhile (· = '0')
  (compare (byteLength a) (byteLength b)).then (compare a b)

/-- A later component with a leading zero is a decimal fraction, any other a number. -/
def compareComponents (a b : List Char) : Ordering :=
  if a.head? = some '0' || b.head? = some '0' then
    compare (dropEndWhile (· = '0') a) (dropEndWhile (· = '0') b)
  else compareNumbers a b

def compareLater : List (List Char) → List (List Char) → Ordering
  | a :: as, b :: bs => (compareComponents a b).then (compareLater as bs)
  | [], [] => .eq
  | [], _ :: _ => .lt
  | _ :: _, [] => .gt

def compareComponentLists : List (List Char) → List (List Char) → Ordering
  | a :: as, b :: bs => (compareNumbers a b).then (compareLater as bs)
  | as, bs => compareLater as bs

def compareLetters : Option Char → Option Char → Ordering
  | none, none => .eq
  | none, some _ => .lt
  | some _, none => .gt
  | some a, some b => compare a b

def compareSuffix (a b : Suffix) : Ordering :=
  (compare a.kind.rank b.kind.rank).then (compare a.number b.number)

/-- Where one list ends, a patch level comes after it and any other suffix before it. -/
def compareSuffixes : List Suffix → List Suffix → Ordering
  | a :: as, b :: bs => (compareSuffix a b).then (compareSuffixes as bs)
  | [], [] => .eq
  | a :: _, [] => if a.kind = .p then .gt else .lt
  | [], b :: _ => if b.kind = .p then .lt else .gt

def order (a b : Version) : Ordering :=
  (compareComponentLists a.components b.components).then <|
  (compareLetters a.letter b.letter).then <|
  (compareSuffixes a.suffixes b.suffixes).then <|
  compare a.revision b.revision

def notAfter (a b : Version) : Bool :=
  a.order b != .gt

def sort (vs : List Version) : List Version :=
  vs.mergeSort notAfter

def splitFrom (name version : List Char) : Option (List Char × Version) :=
  match name with
  | [] => none
  | '-' :: rest =>
    match (if rest.isEmpty then none else ofChars? version) with
    | some v => some (rest.reverse, v)
    | none => splitFrom rest ('-' :: version)
  | c :: rest => splitFrom rest (c :: version)

def splitPackage? (s : String) : Option (String × Version) :=
  (splitFrom s.toList.reverse []).map fun (name, v) => (String.ofList name, v)

end Version

end EbuildAudit
