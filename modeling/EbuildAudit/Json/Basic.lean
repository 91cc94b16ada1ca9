import EbuildAudit.Ascending

namespace EbuildAudit

inductive Json
  | null
  | bool (value : Bool)
  | int (value : Int)
  /-- A number with a fraction or an exponent, or beyond the integers, as it is written. -/
  | real (written : String)
  | str (value : String)
  | arr (items : List Json)
  | obj (fields : List (String × Json))
  deriving Repr, Inhabited

namespace Json

def field? : Json → String → Option Json
  | .obj fields, name => fields.lookup name
  | _, _ => none

def asString? : Json → Option String
  | .str s => some s
  | _ => none

def asBool? : Json → Option Bool
  | .bool b => some b
  | _ => none

def asInt? : Json → Option Int
  | .int n => some n
  | _ => none

def asNat? (bound : Nat) : Json → Option Nat
  | .int n => if 0 ≤ n && n < bound then some n.toNat else none
  | _ => none

def asArray? : Json → Option (List Json)
  | .arr xs => some xs
  | _ => none

def asFields? : Json → Option (List (String × Json))
  | .obj fields => some fields
  | _ => none

def setField (fields : List (String × Json)) (name : String) (value : Json) :
    List (String × Json) :=
  if fields.any (·.1 == name) then
    fields.map fun field => if field.1 == name then (name, value) else field
  else fields ++ [(name, value)]

def ofOption (f : α → Json) : Option α → Json
  | none => .null
  | some a => f a

def ofNat (n : Nat) : Json :=
  .int n

def strings (xs : List String) : Json :=
  .arr (xs.map .str)

end Json

end EbuildAudit

namespace EbuildAudit.Json

/--
The values of the named fields. A record is an object, in which a field may be missing and others
may be present, or an array of all the values in order.
-/
def record? (names : List String) : Json → Option (List (Option Json))
  | .obj fields => some (names.map fun name => fields.lookup name)
  | .arr items => if items.length = names.length then some (items.map some) else none
  | _ => none

def asListOf? (decode : Json → Option α) : Json → Option (List α)
  | .arr items => items.mapM decode
  | _ => none

def asMapOf? (decode : Json → Option α) : Json → Option (List (String × α))
  | .obj fields => do
    let entries ← fields.mapM fun (name, value) => do some (name, ← decode value)
    some (entries.foldl (fun done (name, a) => Ascending.set name a done) [])
  | _ => none

def asSet? (j : Json) : Option (List String) :=
  (j.asListOf? asString?).map Ascending.ofList

def asOptional? (decode : Json → Option α) : Json → Option (Option α)
  | .null => some none
  | j => (decode j).map some

def hexDigit (n : Nat) : Char :=
  Nat.digitChar n

def escapeChar (c : Char) : List Char :=
  match c with
  | '"' => ['\\', '"']
  | '\\' => ['\\', '\\']
  | '\x08' => ['\\', 'b']
  | '\x0c' => ['\\', 'f']
  | '\n' => ['\\', 'n']
  | '\r' => ['\\', 'r']
  | '\t' => ['\\', 't']
  | c =>
    if c.toNat < 0x20 then
      ['\\', 'u', '0', '0', hexDigit (c.toNat / 16), hexDigit (c.toNat % 16)]
    else [c]

def printString (s : String) : List Char :=
  '"' :: s.toList.flatMap escapeChar ++ ['"']

mutual

def printChars : Json → List Char
  | .null => "null".toList
  | .bool true => "true".toList
  | .bool false => "false".toList
  | .int n => (toString n).toList
  | .real written => written.toList
  | .str s => printString s
  | .arr items => '[' :: printItems items ++ [']']
  | .obj fields => '\x7b' :: printFields fields ++ ['\x7d']

def printItems : List Json → List Char
  | [] => []
  | [item] => item.printChars
  | item :: items => item.printChars ++ ',' :: printItems items

def printFields : List (String × Json) → List Char
  | [] => []
  | [(name, value)] => printString name ++ ':' :: value.printChars
  | (name, value) :: fields =>
    printString name ++ ':' :: value.printChars ++ ',' :: printFields fields

end

def print (j : Json) : String :=
  String.ofList j.printChars

end EbuildAudit.Json
