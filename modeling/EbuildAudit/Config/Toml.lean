import EbuildAudit.Text.Basic

namespace EbuildAudit.Toml

open Text

inductive Value
  | str (s : List Char)
  | int (n : Int)
  | bool (b : Bool)
  | arr (items : List Value)
  | table (fields : List (List Char × Value))
  deriving Repr

def isSpace (c : Char) : Bool :=
  c == ' ' || c == '\t'

def skipSpaces (cs : List Char) : List Char :=
  cs.dropWhile isSpace

def isPlain (c : Char) : Bool :=
  c == '\t' || (' ' ≤ c && c != '\x7f')

def newline? : List Char → Option (List Char)
  | '\n' :: cs => some cs
  | '\r' :: '\n' :: cs => some cs
  | _ => none

def skipComment : List Char → List Char
  | '#' :: cs => cs.dropWhile isPlain
  | cs => cs

def endOfLine? (cs : List Char) : Option (List Char) :=
  match skipComment (skipSpaces cs) with
  | [] => some []
  | cs => newline? cs

def skipBlank : Nat → List Char → List Char
  | 0, cs => cs
  | n + 1, cs =>
    let cs := skipSpaces cs
    match newline? (skipComment cs) with
    | some cs => skipBlank n cs
    | none => skipComment cs

def hexCode? (digits : List Char) : Option Char :=
  if digits.all isHexDigit then
    let n := digits.foldl (fun n c => 16 * n + hexValue c) 0
    if n.isValidChar then some (Char.ofNat n) else none
  else none

def escape? : List Char → Option (Char × List Char)
  | 'b' :: cs => some ('\x08', cs)
  | 't' :: cs => some ('\t', cs)
  | 'n' :: cs => some ('\n', cs)
  | 'f' :: cs => some ('\x0c', cs)
  | 'r' :: cs => some ('\r', cs)
  | '"' :: cs => some ('"', cs)
  | '\\' :: cs => some ('\\', cs)
  | 'u' :: a :: b :: c :: d :: cs => (hexCode? [a, b, c, d]).map fun e => (e, cs)
  | 'U' :: a :: b :: c :: d :: e :: f :: g :: h :: cs =>
    (hexCode? [a, b, c, d, e, f, g, h]).map fun e => (e, cs)
  | _ => none

def readBasic : Nat → List Char → Option (List Char × List Char)
  | 0, _ => none
  | _ + 1, [] => none
  | _ + 1, '"' :: cs => some ([], cs)
  | n + 1, '\\' :: cs => do
    let (e, cs) ← escape? cs
    let (s, rest) ← readBasic n cs
    some (e :: s, rest)
  | n + 1, c :: cs => do
    if !isPlain c then none
    let (s, rest) ← readBasic n cs
    some (c :: s, rest)

def readLiteral : List Char → Option (List Char × List Char)
  | [] => none
  | '\'' :: cs => some ([], cs)
  | c :: cs =>
    if isPlain c then (readLiteral cs).map fun (s, rest) => (c :: s, rest) else none

/-- Three quotes end a text of many lines; up to two more before them belong to it. -/
def closing? (quote : Char) (cs : List Char) : Option (List Char × List Char) :=
  let quotes := cs.takeWhile (· = quote)
  if quotes.length < 3 then none
  else if 5 < quotes.length then none
  else some (quotes.drop 3, cs.drop quotes.length)

def skipFolded (cs : List Char) : Option (List Char) :=
  (newline? (skipSpaces cs)).map fun cs => cs.dropWhile fun c => isSpace c || c == '\n' || c == '\r'

def readLong (quote : Char) : Nat → List Char → Option (List Char × List Char)
  | 0, _ => none
  | _ + 1, [] => none
  | n + 1, c :: cs =>
    if c = quote then
      match closing? quote (c :: cs) with
      | some found => some found
      | none =>
        if 5 < ((c :: cs).takeWhile (· = quote)).length then none
        else (readLong quote n cs).map fun (s, rest) => (c :: s, rest)
    else if c = '\\' ∧ quote = '"' then
      match skipFolded cs with
      | some cs => readLong quote n cs
      | none => do
        let (e, cs) ← escape? cs
        let (s, rest) ← readLong quote n cs
        some (e :: s, rest)
    else
      match newline? (c :: cs) with
      | some cs => (readLong quote n cs).map fun (s, rest) => ('\n' :: s, rest)
      | none =>
        if isPlain c then (readLong quote n cs).map fun (s, rest) => (c :: s, rest) else none

def dropFirstNewline (cs : List Char) : List Char :=
  (newline? cs).getD cs

def readString : List Char → Option (List Char × List Char)
  | '"' :: '"' :: '"' :: cs => readLong '"' (cs.length + 1) (dropFirstNewline cs)
  | '\'' :: '\'' :: '\'' :: cs => readLong '\'' (cs.length + 1) (dropFirstNewline cs)
  | '"' :: cs => readBasic (cs.length + 1) cs
  | '\'' :: cs => readLiteral cs
  | _ => none

def isKeyChar (c : Char) : Bool :=
  c.isAlphanum || c == '_' || c == '-'

def readName (cs : List Char) : Option (List Char × List Char) :=
  let bare := cs.takeWhile isKeyChar
  if bare.isEmpty then
    match cs with
    | '"' :: cs => readBasic (cs.length + 1) cs
    | '\'' :: cs => readLiteral cs
    | _ => none
  else some (bare, cs.dropWhile isKeyChar)

def readKey : Nat → List Char → Option (List (List Char) × List Char)
  | 0, _ => none
  | n + 1, cs => do
    let (name, rest) ← readName (skipSpaces cs)
    match skipSpaces rest with
    | '.' :: rest =>
      let (names, rest) ← readKey n rest
      some (name :: names, rest)
    | rest => some ([name], rest)

def joinDigits (isDigit : Char → Bool) (word : List Char) : Option (List Char) :=
  let parts := word.splitOn '_'
  if parts.any (·.isEmpty) || !(parts.all (·.all isDigit)) then none else some parts.flatten

def valueInBase (base : Nat) (digits : List Char) : Nat :=
  digits.foldl (fun n c => base * n + hexValue c) 0

def integer? : List Char → Option Int
  | '0' :: 'x' :: cs => (joinDigits isHexDigit cs).map fun ds => valueInBase 16 ds
  | '0' :: 'o' :: cs => (joinDigits (fun c => '0' ≤ c && c ≤ '7') cs).map fun ds => valueInBase 8 ds
  | '0' :: 'b' :: cs =>
    (joinDigits (fun c => c == '0' || c == '1') cs).map fun ds => valueInBase 2 ds
  | '+' :: cs => unsigned cs
  | '-' :: cs => (unsigned cs).map (-·)
  | cs => unsigned cs
where
  unsigned (cs : List Char) : Option Int := do
    let digits ← joinDigits Char.isDigit cs
    if digits.head? = some '0' && digits.length != 1 then none
    else some (digitsValue digits)

def isWordChar (c : Char) : Bool :=
  isKeyChar c || c == '+' || c == '.' || c == ':'

def readWord (cs : List Char) : Option (Value × List Char) :=
  let word := cs.takeWhile isWordChar
  let rest := cs.dropWhile isWordChar
  if word = "true".toList then some (.bool true, rest)
  else if word = "false".toList then some (.bool false, rest)
  else (integer? word).map fun n => (.int n, rest)

def addField (fields : List (List Char × Value)) (name : List Char) (value : Value) :
    Option (List (List Char × Value)) :=
  if fields.any (·.1 == name) then none else some (fields ++ [(name, value)])

mutual

def readValue : Nat → List Char → Option (Value × List Char)
  | 0, _ => none
  | n + 1, '[' :: cs => (readItems n cs).map fun (items, rest) => (.arr items, rest)
  | n + 1, '\x7b' :: cs =>
    match skipSpaces cs with
    | '\x7d' :: rest => some (.table [], rest)
    | cs => (readFields n [] cs).map fun (fields, rest) => (.table fields, rest)
  | _ + 1, cs =>
    match cs.head? with
    | some '"' | some '\'' => (readString cs).map fun (s, rest) => (.str s, rest)
    | _ => readWord cs

def readItems : Nat → List Char → Option (List Value × List Char)
  | 0, _ => none
  | n + 1, cs =>
    match skipBlank cs.length cs with
    | ']' :: rest => some ([], rest)
    | cs => do
      let (item, rest) ← readValue n cs
      match skipBlank rest.length rest with
      | ',' :: rest =>
        let (items, rest) ← readItems n rest
        some (item :: items, rest)
      | ']' :: rest => some ([item], rest)
      | _ => none

def readFields : Nat → List (List Char × Value) → List Char →
    Option (List (List Char × Value) × List Char)
  | 0, _, _ => none
  | n + 1, fields, cs => do
    let (name, rest) ← readName (skipSpaces cs)
    match skipSpaces rest with
    | '=' :: rest =>
      let (value, rest) ← readValue n (skipSpaces rest)
      let fields ← addField fields name value
      match skipSpaces rest with
      | ',' :: rest => readFields n fields rest
      | '\x7d' :: rest => some (fields, rest)
      | _ => none
    | _ => none

end

inductive Origin
  | header
  | dotted
  | value
  deriving DecidableEq, Repr

structure Entry where
  name : List Char
  origin : Origin
  value : Value

abbrev Document := List Entry

def Document.find? (d : Document) (name : List Char) : Option Entry :=
  List.find? (·.name == name) d

def Document.replace (d : Document) (e : Entry) : Document :=
  d.map fun other => if other.name == e.name then e else other

def Document.addBelow (d : Document) (origin : Origin) (name field : List Char) (value : Value) :
    Option Document :=
  match d.find? name with
  | none => some (d ++ [⟨name, origin, .table [(field, value)]⟩])
  | some ⟨_, o, .table fields⟩ => do
    if o != origin then none
    some (d.replace ⟨name, o, .table (← addField fields field value)⟩)
  | some _ => none

def Document.assign (d : Document) (header : Option (List Char)) (key : List (List Char))
    (value : Value) : Option Document :=
  match header, key with
  | none, [name] => if (d.find? name).isSome then none else some (d ++ [⟨name, .value, value⟩])
  | none, [table, name] => d.addBelow .dotted table name value
  | some table, [name] => d.addBelow .header table name value
  | _, _ => none

def Document.openTable (d : Document) (name : List Char) : Option Document :=
  if (d.find? name).isSome then none else some (d ++ [⟨name, .header, .table []⟩])

def readHeader (cs : List Char) : Option (List Char × List Char) := do
  match ← readKey cs.length cs with
  | ([name], ']' :: rest) => some (name, rest)
  | _ => none

def readLines : Nat → Document → Option (List Char) → List Char → Option Document
  | 0, _, _, _ => none
  | n + 1, d, header, cs =>
    match skipBlank cs.length cs with
    | [] => some d
    | '[' :: cs => do
      let (name, rest) ← readHeader cs
      readLines n (← d.openTable name) (some name) (← endOfLine? rest)
    | cs => do
      match ← readKey cs.length cs with
      | (key, '=' :: rest) =>
        let (value, rest) ← readValue (2 * rest.length + 2) (skipSpaces rest)
        readLines n (← d.assign header key value) header (← endOfLine? rest)
      | _ => none

def parse? (s : String) : Option (List (List Char × Value)) :=
  (readLines (s.length + 1) [] none s.toList).map fun d => d.map fun e => (e.name, e.value)

end EbuildAudit.Toml
