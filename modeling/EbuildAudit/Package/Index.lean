import EbuildAudit.Ebuild.Metadata
import EbuildAudit.Json.Basic
import EbuildAudit.Version

namespace EbuildAudit.Package

structure IndexedVersion where
  version : String
  iuse : List Ebuild.IuseFlag
  keywords : List String
  deriving DecidableEq, Repr

namespace IndexedVersion

def parsed? (v : IndexedVersion) : Option Version :=
  Version.parse? v.version

def hasFlag (v : IndexedVersion) (flag : String) : Bool :=
  v.iuse.any (·.name == flag)

end IndexedVersion

structure Index where
  packages : List (String × List IndexedVersion)
  deriving DecidableEq, Repr

namespace Index

def versions (i : Index) (key : String) : List IndexedVersion :=
  (i.packages.lookup key).getD []

def contains (i : Index) (key : String) : Bool :=
  (i.packages.lookup key).isSome

end Index

def encodeFlag (f : Ebuild.IuseFlag) : Json :=
  .obj [("name", .str f.name), ("default", .ofOption .bool f.default)]

def decodeFlag (j : Json) : Option Ebuild.IuseFlag := do
  match ← j.record? ["name", "default"] with
  | [name, default] =>
    some ⟨← (← name).asString?, ← (default.getD .null).asOptional? Json.asBool?⟩
  | _ => none

def IndexedVersion.encode (v : IndexedVersion) : Json :=
  .obj [
    ("version", .str v.version),
    ("iuse", .arr (v.iuse.map encodeFlag)),
    ("keywords", Json.strings v.keywords)]

def IndexedVersion.decode (j : Json) : Option IndexedVersion := do
  match ← j.record? ["version", "iuse", "keywords"] with
  | [version, iuse, keywords] =>
    some {
      version := ← (← version).asString?
      iuse := ← (← iuse).asListOf? decodeFlag
      keywords := ← (← keywords).asListOf? Json.asString? }
  | _ => none

def Index.encode (i : Index) : Json :=
  .obj [("packages", .obj (i.packages.map fun (key, versions) =>
    (key, .arr (versions.map IndexedVersion.encode))))]

def Index.decode (j : Json) : Option Index := do
  match ← j.record? ["packages"] with
  | [packages] =>
    some ⟨← (← packages).asMapOf? (·.asListOf? IndexedVersion.decode)⟩
  | _ => none

end EbuildAudit.Package
