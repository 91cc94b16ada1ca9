import EbuildAudit.Json.Basic
import EbuildAudit.Text.Basic

namespace EbuildAudit.Json

open Text

def isBlank (c : Char) : Bool :=
  c == ' ' || c == '\t' || c == '\n' || c == '\r'

def skipBlanks (cs : List Char) : List Char :=
  cs.dropWhile isBlank

def hexCode? (digits : List Char) : Option Nat :=
  if digits.all isHexDigit then some (digits.foldl (fun n c => 16 * n + hexValue c) 0) else none

def escaped? : Char → Option Char
  | '"' => some '"'
  | '\\' => some '\\'
  | '/' => some '/'
  | 'b' => some '\x08'
  | 'f' => some '\x0c'
  | 'n' => some '\n'
  | 'r' => some '\r'
  | 't' => some '\t'
  | _ => none

def isHighSurrogate (n : Nat) : Bool :=
  0xd800 ≤ n && n < 0xdc00

def isLowSurrogate (n : Nat) : Bool :=
  0xdc00 ≤ n && n < 0xe000

def readString : List Char → Option (List Char × List Char)
  | [] => none
  | '"' :: rest => some ([], rest)
  | '\\' :: 'u' :: a :: b :: c :: d :: '\\' :: 'u' :: e :: f :: g :: h :: rest => do
    let n ← hexCode? [a, b, c, d]
    if isHighSurrogate n then
      let m ← hexCode? [e, f, g, h]
      if isLowSurrogate m then
        let (s, rest) ← readString rest
        some (Char.ofNat (0x10000 + (n - 0xd800) * 0x400 + (m - 0xdc00)) :: s, rest)
      else none
    else if isLowSurrogate n then none
    else
      let (s, rest) ← readString ('\\' :: 'u' :: e :: f :: g :: h :: rest)
      some (Char.ofNat n :: s, rest)
  | '\\' :: 'u' :: a :: b :: c :: d :: rest => do
    let n ← hexCode? [a, b, c, d]
    if isHighSurrogate n || isLowSurrogate n then none
    else
      let (s, rest) ← readString rest
      some (Char.ofNat n :: s, rest)
  | '\\' :: c :: rest => do
    let e ← escaped? c
    let (s, rest) ← readString rest
    some (e :: s, rest)
  | c :: rest => do
    if c.toNat < 0x20 || c == '\\' then none
    else
      let (s, rest) ← readString rest
      some (c :: s, rest)

def readDigits (cs : List Char) : Option (List Char × List Char) :=
  let digits := cs.takeWhile Char.isDigit
  if digits.isEmpty then none else some (digits, cs.dropWhile Char.isDigit)

def readFraction : List Char → Option (List Char × List Char)
  | '.' :: cs => (readDigits cs).map fun (digits, rest) => ('.' :: digits, rest)
  | cs => some ([], cs)

def readExponent : List Char → Option (List Char × List Char)
  | c :: cs =>
    if c == 'e' || c == 'E' then
      match cs with
      | '+' :: cs => (readDigits cs).map fun (digits, rest) => ('e' :: digits, rest)
      | '-' :: cs => (readDigits cs).map fun (digits, rest) => ('e' :: '-' :: digits, rest)
      | cs => (readDigits cs).map fun (digits, rest) => ('e' :: digits, rest)
    else some ([], c :: cs)
  | [] => some ([], [])

def isWord (n : Int) : Bool :=
  -0x8000000000000000 ≤ n && n < 0x10000000000000000

def readUnsigned (negative : Bool) (cs : List Char) : Option (Json × List Char) := do
  let (digits, rest) ← readDigits cs
  if digits.head? = some '0' && digits.length != 1 then none
  let (fraction, rest) ← readFraction rest
  let (exponent, rest) ← readExponent rest
  let value : Int := if negative then -(digitsValue digits : Int) else digitsValue digits
  if fraction.isEmpty && exponent.isEmpty && isWord value && !(negative && value == 0) then
    some (.int value, rest)
  else
    let written := digits ++ fraction ++ exponent
    some (.real (String.ofList (if negative then '-' :: written else written)), rest)

def readNumber : List Char → Option (Json × List Char)
  | '-' :: cs => readUnsigned true cs
  | cs => readUnsigned false cs

mutual

/-- A value; each step spends one unit of fuel, each array or object one unit of depth. -/
def readValue : Nat → Nat → List Char → Option (Json × List Char)
  | 0, _, _ => none
  | fuel + 1, depth, cs =>
    match skipBlanks cs with
    | 'n' :: 'u' :: 'l' :: 'l' :: rest => some (.null, rest)
    | 't' :: 'r' :: 'u' :: 'e' :: rest => some (.bool true, rest)
    | 'f' :: 'a' :: 'l' :: 's' :: 'e' :: rest => some (.bool false, rest)
    | '"' :: rest => (readString rest).map fun (s, rest) => (.str (String.ofList s), rest)
    | '[' :: rest =>
      match depth with
      | 0 => none
      | depth + 1 =>
        match skipBlanks rest with
        | ']' :: rest => some (.arr [], rest)
        | rest => (readItems fuel depth rest).map fun (items, rest) => (.arr items, rest)
    | '\x7b' :: rest =>
      match depth with
      | 0 => none
      | depth + 1 =>
        match skipBlanks rest with
        | '\x7d' :: rest => some (.obj [], rest)
        | rest => (readFields fuel depth rest).map fun (fields, rest) => (.obj fields, rest)
    | cs => readNumber cs

def readItems : Nat → Nat → List Char → Option (List Json × List Char)
  | 0, _, _ => none
  | fuel + 1, depth, cs => do
    let (item, rest) ← readValue fuel depth cs
    match skipBlanks rest with
    | ',' :: rest =>
      let (items, rest) ← readItems fuel depth rest
      some (item :: items, rest)
    | ']' :: rest => some ([item], rest)
    | _ => none

def readFields : Nat → Nat → List Char → Option (List (String × Json) × List Char)
  | 0, _, _ => none
  | fuel + 1, depth, cs => do
    match skipBlanks cs with
    | '"' :: rest =>
      let (name, rest) ← readString rest
      match skipBlanks rest with
      | ':' :: rest =>
        let (value, rest) ← readValue fuel depth rest
        match skipBlanks rest with
        | ',' :: rest =>
          let (fields, rest) ← readFields fuel depth rest
          some ((String.ofList name, value) :: fields, rest)
        | '\x7d' :: rest => some ([(String.ofList name, value)], rest)
        | _ => none
      | _ => none
    | _ => none

end

def parseRaw? (depth : Nat) (s : String) : Option Json :=
  match readValue (2 * s.length + 2) depth s.toList with
  | some (value, rest) => if (skipBlanks rest).isEmpty then some value else none
  | none => none

mutual

/-- Of repeated fields the last value counts, in the place of the first. -/
def merged : Json → Json
  | .arr items => .arr (mergedItems items)
  | .obj fields => .obj (mergedFields fields [])
  | j => j

def mergedItems : List Json → List Json
  | [] => []
  | item :: items => item.merged :: mergedItems items

def mergedFields : List (String × Json) → List (String × Json) → List (String × Json)
  | [], done => done
  | (name, value) :: fields, done => mergedFields fields (setField done name value.merged)

end

def depthLimit : Nat := 127

def parse? (s : String) : Option Json :=
  (parseRaw? depthLimit s).map merged

end EbuildAudit.Json
