import EbuildAudit.Json.Basic
import EbuildAudit.Profile.Data

namespace EbuildAudit.Profile

def wordBound : Nat := 0x10000000000000000

def EntryKind.all : List EntryKind :=
  [.atoms, .atomKeywords, .atomUse, .use]

def EntryKind.name : EntryKind → String
  | .atoms => "Atoms"
  | .atomKeywords => "AtomKeywords"
  | .atomUse => "AtomUse"
  | .use => "Use"

def EntryKind.parse? (s : String) : Option EntryKind :=
  all.find? (·.name == s)

def EntryKind.decode : Json → Option EntryKind
  | .str s => parse? s
  | .obj [(name, .null)] => parse? name
  | _ => none

def Description.encode (d : Description) : Json :=
  .obj [("arch", .str d.arch), ("path", .str d.path), ("status", .str d.status),
    ("line", .ofNat d.line)]

def Description.decode (j : Json) : Option Description := do
  match ← j.record? ["arch", "path", "status", "line"] with
  | [arch, path, status, line] =>
    some ⟨← (← arch).asString?, ← (← path).asString?, ← (← status).asString?,
      ← (← line).asNat? wordBound⟩
  | _ => none

def MalformedLine.encode (m : MalformedLine) : Json :=
  .obj [("line", .ofNat m.line), ("text", .str m.text)]

def MalformedLine.decode (j : Json) : Option MalformedLine := do
  match ← j.record? ["line", "text"] with
  | [line, text] => some ⟨← (← line).asNat? wordBound, ← (← text).asString?⟩
  | _ => none

def ProfileEntry.encode (e : ProfileEntry) : Json :=
  .obj [("file", .str e.file), ("kind", .str e.kind.name), ("line", .ofNat e.line),
    ("tokens", Json.strings e.tokens)]

def ProfileEntry.decode (j : Json) : Option ProfileEntry := do
  match ← j.record? ["file", "kind", "line", "tokens"] with
  | [file, kind, line, tokens] =>
    some ⟨← (← file).asString?, ← EntryKind.decode (← kind), ← (← line).asNat? wordBound,
      ← (← tokens).asListOf? Json.asString?⟩
  | _ => none

def encodeMap (encode : α → Json) (entries : List (String × α)) : Json :=
  .obj (entries.map fun (name, a) => (name, encode a))

def Data.encode (data : Data) : Json :=
  .obj [
    ("categories", Json.strings data.categories),
    ("category_dirs", Json.strings data.categoryDirs),
    ("arches", Json.strings data.arches),
    ("profiles", .arr (data.profiles.map Description.encode)),
    ("malformed_desc", .arr (data.malformed.map MalformedLine.encode)),
    ("global_use", Json.strings data.globalUse),
    ("local_use", encodeMap Json.strings data.localUse),
    ("use_expand", Json.strings data.useExpand),
    ("dirs", Json.strings data.dirs),
    ("parents", encodeMap Json.strings data.parents),
    ("eapis", encodeMap .str data.eapis),
    ("deprecated", encodeMap .str data.deprecated),
    ("entries", .arr (data.entries.map ProfileEntry.encode))]

def fieldNames : List String :=
  ["categories", "category_dirs", "arches", "profiles", "malformed_desc", "global_use", "local_use",
    "use_expand", "dirs", "parents", "eapis", "deprecated", "entries"]

def Data.decode (j : Json) : Option Data := do
  match ← j.record? fieldNames with
  | [categories, categoryDirs, arches, profiles, malformed, globalUse, localUse, useExpand, dirs,
      parents, eapis, deprecated, entries] =>
    some {
      categories := ← (← categories).asListOf? Json.asString?
      categoryDirs := ← (← categoryDirs).asSet?
      arches := ← (← arches).asSet?
      profiles := ← (← profiles).asListOf? Description.decode
      malformed := ← (← malformed).asListOf? MalformedLine.decode
      globalUse := ← (← globalUse).asSet?
      localUse := ← (← localUse).asMapOf? Json.asSet?
      useExpand := ← (← useExpand).asSet?
      dirs := ← (← dirs).asSet?
      parents := ← (← parents).asMapOf? (·.asListOf? Json.asString?)
      eapis := ← (← eapis).asMapOf? Json.asString?
      deprecated := ← (← deprecated).asMapOf? Json.asString?
      entries := ← (← entries).asListOf? ProfileEntry.decode }
  | _ => none

end EbuildAudit.Profile
