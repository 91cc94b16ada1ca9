import EbuildAudit.Text.Character

namespace EbuildAudit.Text

def blanks : CharSet where
  boundaries :=
   [0x9, 0xe, 0x20, 0x21, 0x85, 0x86, 0xa0, 0xa1, 0x1680, 0x1681, 0x2000, 0x200b, 0x2028, 0x202a,
    0x202f, 0x2030, 0x205f, 0x2060, 0x3000, 0x3001]

def isBlank (c : Char) : Bool :=
  blanks.contains c

def dropEndWhile (p : Char → Bool) (cs : List Char) : List Char :=
  (cs.reverse.dropWhile p).reverse

def trimWhile (p : Char → Bool) (cs : List Char) : List Char :=
  dropEndWhile p (cs.dropWhile p)

def trim (s : String) : String :=
  String.ofList (trimWhile isBlank s.toList)

def words (s : String) : List String :=
  ((s.toList.splitOnP isBlank).filter (!·.isEmpty)).map String.ofList

def splitOn (sep : Char) (s : String) : List String :=
  (s.toList.splitOn sep).map String.ofList

def cutAt? (mark : List Char) : List Char → Option (List Char × List Char)
  | [] => if mark.isEmpty then some ([], []) else none
  | c :: cs =>
    match mark.isPrefixOf? (c :: cs) with
    | some rest => some ([], rest)
    | none => (cutAt? mark cs).map fun (before, after) => (c :: before, after)

def cut? (mark s : String) : Option (String × String) :=
  (cutAt? mark.toList s.toList).map fun (before, after) =>
    (String.ofList before, String.ofList after)

def stripStart? (start s : String) : Option String :=
  (start.toList.isPrefixOf? s.toList).map String.ofList

def stripEnd? (finish s : String) : Option String :=
  (finish.toList.reverse.isPrefixOf? s.toList.reverse).map (String.ofList ·.reverse)

def startsWith (start s : String) : Bool :=
  start.toList.isPrefixOf s.toList

def joinWith (sep : String) (parts : List String) : String :=
  sep.intercalate parts

def occursIn (part whole : String) : Bool :=
  (cutAt? part.toList whole.toList).isSome

def dropReturn (line : List Char) : List Char :=
  if line.getLast? = some '\r' then line.dropLast else line

/--
A line ends at a line feed, or at a carriage return and a line feed. The rest after the last line
feed is a line unless it is empty, and keeps its carriage return.
-/
def lineLists (cs : List Char) : List (List Char) :=
  let parts := cs.splitOn '\n'
  parts.dropLast.map dropReturn ++ (parts.getLast?.toList.filter (!·.isEmpty))

def lines (s : String) : List String :=
  (lineLists s.toList).map String.ofList

def findFirst? (take : List Char → Option (α × List Char)) : List Char → Option α
  | [] => none
  | c :: cs =>
    match take (c :: cs) with
    | some (a, _) => some a
    | none => findFirst? take cs

def findAll (take : List Char → Option (α × List Char)) (cs : List Char) : List α :=
  match cs with
  | [] => []
  | c :: tail =>
    match take (c :: tail) with
    | some (a, rest) =>
      if _h : rest.length ≤ tail.length then a :: findAll take rest else a :: findAll take tail
    | none => findAll take tail
termination_by cs.length

def digitValue (c : Char) : Nat :=
  c.toNat - '0'.toNat

def digitsValue (cs : List Char) : Nat :=
  cs.foldl (fun n c => 10 * n + digitValue c) 0

def boundedDigits? (bound : Nat) (cs : List Char) : Option Nat :=
  if cs.isEmpty || !cs.all Char.isDigit then none
  else if digitsValue cs < bound then some (digitsValue cs) else none

def bounded? (bound : Nat) : List Char → Option Nat
  | '+' :: cs => boundedDigits? bound cs
  | cs => boundedDigits? bound cs

def isHexDigit (c : Char) : Bool :=
  c.isDigit || ('a' ≤ c && c ≤ 'f') || ('A' ≤ c && c ≤ 'F')

def hexValue (c : Char) : Nat :=
  if c.isDigit then digitValue c
  else if 'a' ≤ c && c ≤ 'f' then c.toNat - 'a'.toNat + 10
  else c.toNat - 'A'.toNat + 10

def hexText (n : Nat) : String :=
  String.ofList (Nat.toDigits 16 n)

def byteLength (cs : List Char) : Nat :=
  cs.foldr (fun c n => c.utf8Size + n) 0

def dropBytes? : Nat → List Char → Option (List Char)
  | 0, cs => some cs
  | _ + 1, [] => none
  | n + 1, c :: cs => if c.utf8Size ≤ n + 1 then dropBytes? (n + 1 - c.utf8Size) cs else none

def takeBytes? : Nat → List Char → Option (List Char)
  | 0, _ => some []
  | _ + 1, [] => none
  | n + 1, c :: cs =>
    if c.utf8Size ≤ n + 1 then (takeBytes? (n + 1 - c.utf8Size) cs).map (c :: ·) else none

/-- The text from byte `start` up to byte `stop`, if both lie between characters. -/
def slice? (cs : List Char) (start stop : Nat) : Option (List Char) :=
  if start ≤ stop then (dropBytes? start cs).bind (takeBytes? (stop - start)) else none

def quotedChar (c : Char) : String :=
  match c with
  | '\x00' => "\\0"
  | '\t' => "\\t"
  | '\r' => "\\r"
  | '\n' => "\\n"
  | '"' => "\\\""
  | '\\' => "\\\\"
  | c => if isPrintable c then c.toString else "\\u\x7b" ++ hexText c.toNat ++ "\x7d"

def quoted (s : String) : String :=
  "\"" ++ String.join (s.toList.map quotedChar) ++ "\""

end EbuildAudit.Text
