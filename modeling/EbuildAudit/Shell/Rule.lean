import EbuildAudit.Shell.Tree

/-!
Grammars as data. A rule says what it reads and which nodes it makes of that. Choices are ordered:
the second way is tried only where the first fails. Repetitions read as much as they can, and what
they have read is not given back. Symbols stand for the rules of a grammar.
-/

namespace EbuildAudit.Shell

structure Cursor where
  rest : List Char
  offset : Nat
  line : Nat
  column : Nat
  deriving DecidableEq, Repr

namespace Cursor

def start (script : List Char) : Cursor :=
  ⟨script, 0, 1, 1⟩

def past (c : Cursor) (x : Char) (rest : List Char) : Cursor :=
  if x = '\n' then ⟨rest, c.offset + 1, c.line + 1, 1⟩
  else ⟨rest, c.offset + x.utf8Size, c.line, c.column + x.utf8Size⟩

def skip : Nat → Cursor → Cursor
  | 0, c => c
  | n + 1, c =>
    match c.rest with
    | [] => c
    | x :: rest => skip n (c.past x rest)

def textTo (c d : Cursor) : List Char :=
  c.rest.take (c.rest.length - d.rest.length)

end Cursor

abbrev Lexeme :=
  List Char → Option Nat

inductive Rule (σ : Type)
  | empty
  | lexeme (length : Lexeme)
  | seq (first second : Rule σ)
  | choice (first second : Rule σ)
  | many (rule : Rule σ)
  | notAhead (rule : Rule σ)
  | exactly (length : Lexeme) (rule : Rule σ)
  | dependent (first : Rule σ) (next : List Char → Rule σ)
  | node (kind : String) (named : Bool) (rule : Rule σ)
  | field (name : String) (rule : Rule σ)
  | group (kind : String) (rule : Rule σ)
  | nest (kind : String) (role : Option String) (first next : Rule σ)
  | symbol (s : σ)

namespace Rule

instance : Append (Rule σ) :=
  ⟨seq⟩

instance : OrElse (Rule σ) :=
  ⟨fun r s => choice r (s ())⟩

def opt (r : Rule σ) : Rule σ :=
  r <|> empty

def many1 (r : Rule σ) : Rule σ :=
  r ++ many r

def ahead (r : Rule σ) : Rule σ :=
  notAhead (notAhead r)

end Rule

abbrev Reader :=
  Cursor → Option (List Node × Cursor)

def Node.spanning (kind : String) (named : Bool) (start stop : Cursor) (children : List Node) :
    Node :=
  .node ⟨kind, none, named, start.offset, stop.offset, start.line, start.column⟩ children

def Node.withField (name : String) : Node → Node
  | .node i children =>
    if i.field.isSome || i.kind = "comment" then .node i children
    else .node { i with field := some name } children

namespace Reader

def repeated (step : Reader) : List Char → Reader
  | [], c => some ([], c)
  | _ :: limit, c =>
    match step c with
    | none => some ([], c)
    | some (ns, d) =>
      if d.offset = c.offset then some ([], c)
      else (repeated step limit d).map fun (ms, e) => (ns ++ ms, e)

def nested (cover : Cursor → List Node → List Node → Node) (step : Reader) :
    List Char → List Node → Reader
  | [], ns, c => some (ns, c)
  | _ :: limit, ns, c =>
    match step c with
    | none => some (ns, c)
    | some (ms, d) =>
      if d.offset = c.offset then some (ns, c)
      else nested cover step limit [cover d ns ms] d

end Reader

def Rule.read (symbols : σ → Reader) : Rule σ → Reader
  | .empty, c => some ([], c)
  | .lexeme length, c => (length c.rest).map fun n => ([], c.skip n)
  | .seq r s, c => do
    let (ns, d) ← r.read symbols c
    let (ms, e) ← s.read symbols d
    return (ns ++ ms, e)
  | .choice r s, c =>
    match r.read symbols c with
    | some x => some x
    | none => s.read symbols c
  | .many r, c => Reader.repeated (r.read symbols) c.rest c
  | .notAhead r, c => if (r.read symbols c).isSome then none else some ([], c)
  | .exactly length r, c => do
    let n ← length c.rest
    let (ns, d) ← r.read symbols { c with rest := c.rest.take n }
    if d.rest.isEmpty then return (ns, { d with rest := c.rest.drop n }) else none
  | .dependent r next, c => do
    let (ns, d) ← r.read symbols c
    let (ms, e) ← (next (c.textTo d)).read symbols d
    return (ns ++ ms, e)
  | .node kind named r, c => do
    let (ns, d) ← r.read symbols c
    return ([.spanning kind named c d ns], d)
  | .field name r, c => do
    let (ns, d) ← r.read symbols c
    return (ns.map (·.withField name), d)
  | .group kind r, c => do
    let (ns, d) ← r.read symbols c
    if ns.length = 1 then return (ns, d) else return ([.spanning kind true c d ns], d)
  | .nest kind role r next, c => do
    let (ns, d) ← r.read symbols c
    let labelled (ns : List Node) :=
      match role with
      | some name => ns.map (·.withField name)
      | none => ns
    Reader.nested (fun e ns ms => .spanning kind true c e (labelled ns ++ ms))
      (next.read symbols) d.rest ns d
  | .symbol s, c => symbols s c

def readWithin (grammar : σ → Rule σ) : Nat → σ → Reader
  | 0, _ => fun _ => none
  | depth + 1, s => (grammar s).read (readWithin grammar depth)

end EbuildAudit.Shell
