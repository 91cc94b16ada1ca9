import EbuildAudit.FileTree
import EbuildAudit.Json.Basic
import EbuildAudit.Json.Parser

namespace EbuildAudit

structure CacheKey where
  addon : String
  version : Nat
  identity : String
  deriving DecidableEq, Repr

def CacheKey.display (key : CacheKey) : String :=
  key.addon ++ "-" ++ toString key.version ++ "-" ++ key.identity

structure CacheError where
  path : String
  cause : FileError
  deriving DecidableEq, Repr

def CacheError.message (e : CacheError) : String :=
  "cache I/O error at " ++ e.path ++ ": " ++ e.cause.message

structure Envelope where
  identity : String
  version : Nat
  value : Json

namespace Envelope

def versionBound : Nat := 0x100000000

def fieldNames : List String :=
  ["identity", "version", "value"]

def encode (e : Envelope) : Json :=
  .obj [("identity", .str e.identity), ("version", .ofNat e.version), ("value", e.value)]

def hasRepeatedField : Json → Bool
  | .obj fields => fieldNames.any fun name => 1 < (fields.filter (·.1 == name)).length
  | _ => false

def decode (j : Json) : Option Envelope := do
  if hasRepeatedField j then none
  match ← j.record? fieldNames with
  | [identity, version, value] =>
    some ⟨← (← identity).asString?, ← (← version).asNat? versionBound, (← value).merged⟩
  | _ => none

def parse? (s : String) : Option Envelope := do
  decode (← Json.parseRaw? Json.depthLimit s)

end Envelope

structure Cache where
  dir : String
  deriving DecidableEq, Repr

namespace Cache

def path (c : Cache) (addon : String) : String :=
  Path.join c.dir (addon ++ ".json")

/-- What is kept for a key; a file that is damaged or written for another key is passed over. -/
def load? (c : Cache) (files : FileTree) (key : CacheKey) : Option Json := do
  let envelope ← Envelope.parse? (← (files.readText (c.path key.addon)).toOption)
  if envelope.identity = key.identity ∧ envelope.version = key.version then some envelope.value
  else none

def draftPath (path : String) : String :=
  match Path.parent? path, Path.fileStem? path with
  | some dir, some stem => Path.join dir (stem ++ ".json.tmp")
  | _, _ => path

abbrev Attempt (ε : Type) := FileTree × Option ε

def attempt (e : Except FileError FileTree) (files : FileTree) (path : String)
    (next : FileTree → Attempt CacheError) : Attempt CacheError :=
  match e with
  | .ok files => next files
  | .error cause => (files, some ⟨path, cause⟩)

def store (c : Cache) (files : FileTree) (key : CacheKey) (value : Json) : Attempt CacheError :=
  let path := c.path key.addon
  let draft := draftPath path
  let text := (Envelope.encode ⟨key.identity, key.version, value⟩).print
  attempt (files.createDirs c.dir) files c.dir fun files =>
  attempt (files.write draft text.toUTF8 0) files draft fun files =>
  attempt (files.renameFile draft path) files path fun files => (files, none)

def removeAll (removed : Nat) (files : FileTree) : List String → FileTree × Except CacheError Nat
  | [] => (files, .ok removed)
  | path :: paths =>
    match files.removeFile path with
    | .ok files => removeAll (removed + 1) files paths
    | .error cause => (files, .error ⟨path, cause⟩)

def clear (c : Cache) (files : FileTree) : FileTree × Except CacheError Nat :=
  if !files.exists? c.dir then (files, .ok 0)
  else
    match files.list c.dir with
    | .error cause => (files, .error ⟨c.dir, cause⟩)
    | .ok entries =>
      let paths := entries.map fun (name, _) => Path.join c.dir name
      removeAll 0 files (paths.filter fun path => Path.extension? path = some "json")

end Cache

end EbuildAudit
