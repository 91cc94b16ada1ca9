import EbuildAudit.Ascending
import EbuildAudit.FileTree
import EbuildAudit.Text.Basic
import EbuildAudit.Version

namespace EbuildAudit.Advisory

open Text

inductive RangeOp
  | lt
  | le
  | eq
  | ge
  | gt
  | rlt
  | rle
  | rge
  | rgt
  deriving DecidableEq, Repr

namespace RangeOp

def all : List RangeOp :=
  [.lt, .le, .eq, .ge, .gt, .rlt, .rle, .rge, .rgt]

def name : RangeOp → String
  | .lt => "lt"
  | .le => "le"
  | .eq => "eq"
  | .ge => "ge"
  | .gt => "gt"
  | .rlt => "rlt"
  | .rle => "rle"
  | .rge => "rge"
  | .rgt => "rgt"

def parse? (s : String) : Option RangeOp :=
  all.find? (·.name == s)

end RangeOp

structure VersionRange where
  op : RangeOp
  version : Version
  star : Bool
  deriving DecidableEq, Repr

def VersionRange.matches (r : VersionRange) (v : Version) : Bool :=
  let order := v.order r.version
  let sameBase := v.base == r.version.base
  let revision := compare v.revision r.version.revision
  match r.op with
  | .eq => if r.star then r.version.text.toList.isPrefixOf v.text.toList else order == .eq
  | .lt => order == .lt
  | .le => order != .gt
  | .ge => order != .lt
  | .gt => order == .gt
  | .rlt => sameBase && revision == .lt
  | .rle => sameBase && revision != .gt
  | .rge => sameBase && revision != .lt
  | .rgt => sameBase && revision == .gt

structure Vulnerability where
  advisory : String
  arches : List String
  vulnerable : List VersionRange
  unaffected : List VersionRange
  deriving DecidableEq, Repr

def Vulnerability.affects (u : Vulnerability) (v : Version) : Bool :=
  u.vulnerable.any (·.matches v) && !u.unaffected.any (·.matches v)

structure Index where
  byPackage : List (String × List Vulnerability)
  deriving DecidableEq, Repr

def Index.empty : Index :=
  ⟨[]⟩

def Index.ofPackage (i : Index) (key : String) : List Vulnerability :=
  (i.byPackage.lookup key).getD []

def takeBlanks? : List Char → Option (List Char)
  | c :: cs => if isBlank c then some (cs.dropWhile isBlank) else none
  | [] => none

def takeQuoted? (least : Nat) (cs : List Char) : Option (List Char × List Char) :=
  match cutAt? ['"'] cs with
  | some (s, rest) => if s.length < least then none else some (s, rest)
  | none => none

def takeId? (cs : List Char) : Option (List Char × List Char) := do
  let rest ← takeBlanks? (← "<glsa".toList.isPrefixOf? cs)
  takeQuoted? 1 (← "id=\"".toList.isPrefixOf? rest)

def isAttributeChar (c : Char) : Bool :=
  c.isAlpha || c == '_'

def takeAttribute? (cs : List Char) : Option ((List Char × List Char) × List Char) := do
  let name := cs.takeWhile isAttributeChar
  if name.isEmpty then none
  let (value, rest) ← takeQuoted? 0 (← "=\"".toList.isPrefixOf? (cs.dropWhile isAttributeChar))
  some ((name, value), rest)

def attributesOf (cs : List Char) : List (String × String) :=
  (findAll takeAttribute? cs).map fun (name, value) => (String.ofList name, String.ofList value)

def takePackage? (cs : List Char) : Option ((List Char × List Char) × List Char) := do
  let rest ← takeBlanks? (← "<package".toList.isPrefixOf? cs)
  let (attributes, rest) ← cutAt? ['>'] rest
  let (body, rest) ← cutAt? "</package>".toList rest
  some ((attributes, body), rest)

structure RangeElement where
  vulnerable : Bool
  attributes : List Char
  text : List Char

def takeSense? (cs : List Char) : Option (Bool × List Char) :=
  match "vulnerable".toList.isPrefixOf? cs with
  | some rest => some (true, rest)
  | none => ("unaffected".toList.isPrefixOf? cs).map fun rest => (false, rest)

def isRangeChar (c : Char) : Bool :=
  c != '<' && !isBlank c

/-- A range element; either of the two closing tags will do. -/
def takeRange? (cs : List Char) : Option (RangeElement × List Char) := do
  let (vulnerable, rest) ← takeSense? (← ['<'].isPrefixOf? cs)
  let (attributes, rest) ← cutAt? ['>'] (← takeBlanks? rest)
  let rest := rest.dropWhile isBlank
  let text := rest.takeWhile isRangeChar
  if text.isEmpty then none
  let rest := (rest.dropWhile isRangeChar).dropWhile isBlank
  let (_, rest) ← takeSense? (← "</".toList.isPrefixOf? rest)
  some (⟨vulnerable, attributes, text⟩, ← ['>'].isPrefixOf? rest)

def takeStar (cs : List Char) : Bool × List Char :=
  match cs.reverse with
  | '*' :: rest => (true, rest.reverse)
  | _ => (false, cs)

def RangeElement.range? (e : RangeElement) : Option VersionRange := do
  let op ← RangeOp.parse? (← (attributesOf e.attributes).lookup "range")
  let (star, text) := takeStar e.text
  some ⟨op, ← Version.ofChars? text, star⟩

def arches (attributes : List (String × String)) : List String :=
  match attributes.lookup "arch" with
  | none => []
  | some "*" => []
  | some list => words list

/-- The package and what an element says of it; of repeated attributes the last one counts. -/
def vulnerability? (id : List Char) (element : List Char × List Char) :
    Option (String × Vulnerability) := do
  let attributes := (attributesOf element.1).reverse
  let name ← attributes.lookup "name"
  let ranges := findAll takeRange? element.2
  some (name, {
    advisory := "GLSA-" ++ String.ofList id
    arches := arches attributes
    vulnerable := (ranges.filter (·.vulnerable)).filterMap (·.range?)
    unaffected := (ranges.filter (!·.vulnerable)).filterMap (·.range?) })

def vulnerabilities (xml : List Char) : List (String × Vulnerability) :=
  match findFirst? takeId? xml with
  | none => []
  | some id => (findAll takePackage? xml).filterMap (vulnerability? id)

def Index.add (i : Index) (xml : String) : Index :=
  ⟨(vulnerabilities xml.toList).foldl (fun entries (name, u) => Ascending.push name u entries)
    i.byPackage⟩

def Index.load (files : FileTree) (dir : String) : Except FileError Index := do
  let entries ← files.list dir
  let names := (entries.map (·.1)).filter fun name => Path.extension? name = some "xml"
  let texts := (names.mergeSort (· ≤ ·)).filterMap fun name =>
    (files.readText (Path.join dir name)).toOption
  return texts.foldl Index.add .empty

end EbuildAudit.Advisory
