import EbuildAudit.Config.Toml
import EbuildAudit.Config.Yaml

namespace EbuildAudit.Config

open Text

structure Section where
  enabled : Option Bool
  dir : Option String
  deriving DecidableEq, Repr

def Section.empty : Section :=
  ⟨none, none⟩

structure Settings where
  jobs : Option Nat
  output : Option String
  checks : List String
  skipChecks : List String
  cache : Section
  advisories : Section
  deriving DecidableEq, Repr

def Settings.empty : Settings :=
  ⟨none, none, [], [], .empty, .empty⟩

def jobsBound : Nat := 0x10000000000000000

namespace Toml

open EbuildAudit.Toml (Value)

def text? : Value → Option String
  | .str s => some (String.ofList s)
  | _ => none

def texts? : Value → Option (List String)
  | .arr items => items.mapM text?
  | _ => none

def bool? : Value → Option Bool
  | .bool b => some b
  | _ => none

def nat? : Value → Option Nat
  | .int n => if 0 ≤ n ∧ n < jobsBound then some n.toNat else none
  | _ => none

def setInSection (s : Section) (name : List Char) (value : Value) : Option Section :=
  match String.ofList name with
  | "enabled" => (bool? value).map fun b => { s with enabled := some b }
  | "dir" => (text? value).map fun d => { s with dir := some d }
  | _ => none

def section? : Value → Option Section
  | .table fields => fields.foldlM (fun s (name, value) => setInSection s name value) .empty
  | .arr (enabled :: dir :: _) => do some ⟨some (← bool? enabled), some (← text? dir)⟩
  | _ => none

def set (s : Settings) (name : List Char) (value : Value) : Option Settings :=
  match String.ofList name with
  | "jobs" => (nat? value).map fun n => { s with jobs := some n }
  | "output" => (text? value).map fun o => { s with output := some o }
  | "checks" => (texts? value).map fun cs => { s with checks := cs }
  | "skip_checks" => (texts? value).map fun cs => { s with skipChecks := cs }
  | "cache" => (section? value).map fun c => { s with cache := c }
  | "glsa" => (section? value).map fun a => { s with advisories := a }
  | _ => none

end Toml

def Settings.ofToml? (text : String) : Option Settings := do
  (← EbuildAudit.Toml.parse? text).foldlM (fun s (name, value) => Toml.set s name value) .empty

namespace Yaml

open EbuildAudit.Yaml (Node)

def isNull : Node → Bool
  | .scalar s true =>
    s.isEmpty || ["~", "null", "Null", "NULL"].contains (String.ofList s)
  | _ => false

def optional? (read : Node → Option α) (n : Node) : Option (Option α) :=
  if isNull n then some none else (read n).map some

def text? : Node → Option String
  | .scalar s _ => some (String.ofList s)
  | _ => none

def texts? : Node → Option (List String)
  | .seq items => items.mapM text?
  | .scalar [] true => some []
  | _ => none

def bool? : Node → Option Bool
  | .scalar s true =>
    if ["true", "True", "TRUE"].contains (String.ofList s) then some true
    else if ["false", "False", "FALSE"].contains (String.ofList s) then some false
    else none
  | _ => none

def inBase? (base : Nat) (isDigit : Char → Bool) (cs : List Char) : Option Nat :=
  if cs.isEmpty || !cs.all isDigit then none else some (EbuildAudit.Toml.valueInBase base cs)

def unsigned? : List Char → Option Nat
  | '0' :: 'x' :: cs => inBase? 16 isHexDigit cs
  | '0' :: 'o' :: cs => inBase? 8 (fun c => '0' ≤ c && c ≤ '7') cs
  | '0' :: 'b' :: cs => inBase? 2 (fun c => c == '0' || c == '1') cs
  | '0' :: c :: cs =>
    if (c :: cs).all Char.isDigit then none else inBase? 10 Char.isDigit ('0' :: c :: cs)
  | cs => inBase? 10 Char.isDigit cs

/-- A plain number, with or without a plus sign; a leading zero makes it a text. -/
def nat? : Node → Option Nat
  | .scalar s true => do
    let n ← unsigned? (match s with | '+' :: cs => cs | cs => cs)
    if n < jobsBound then some n else none
  | _ => none

def fields? : Node → Option (List (String × Node))
  | .map fields => do
    let named ← fields.mapM fun (key, value) => do some (← text? key, value)
    if (named.map (·.1)).Nodup then some named else none
  | .scalar [] true => some []
  | _ => none

def setInSection (s : Section) (name : String) (n : Node) : Option Section :=
  match name with
  | "enabled" => (optional? bool? n).map fun b => { s with enabled := b }
  | "dir" => (optional? text? n).map fun d => { s with dir := d }
  | _ => none

def section? : Node → Option Section
  | .seq [enabled, dir] => do some ⟨← optional? bool? enabled, ← optional? text? dir⟩
  | n => do (← fields? n).foldlM (fun s (name, value) => setInSection s name value) .empty

def set (s : Settings) (name : String) (n : Node) : Option Settings :=
  match name with
  | "jobs" => (optional? nat? n).map fun j => { s with jobs := j }
  | "output" => (optional? text? n).map fun o => { s with output := o }
  | "checks" => (texts? n).map fun cs => { s with checks := cs }
  | "skip_checks" => (texts? n).map fun cs => { s with skipChecks := cs }
  | "cache" => (optional? section? n).map fun c => { s with cache := c.getD .empty }
  | "glsa" => (optional? section? n).map fun a => { s with advisories := a.getD .empty }
  | _ => none

def settingNames : List String :=
  ["jobs", "output", "checks", "skip_checks", "cache", "glsa"]

def settings? : Node → Option Settings
  | .seq items =>
    if items.length = settingNames.length then
      (settingNames.zip items).foldlM (fun s (name, n) => set s name n) .empty
    else none
  | n => do (← fields? n).foldlM (fun s (name, value) => set s name value) .empty

end Yaml

def Settings.ofYaml? (text : String) : Option Settings := do
  Yaml.settings? (← EbuildAudit.Yaml.parse? text)

end EbuildAudit.Config
