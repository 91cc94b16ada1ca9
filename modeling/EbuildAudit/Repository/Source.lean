import EbuildAudit.FileTree
import EbuildAudit.Glob.Pattern
import EbuildAudit.ScanUnit
import EbuildAudit.Text.Basic
import EbuildAudit.Version

/-!
The units of a repository, in the order of a scan: the versions of a package, the oldest first, then
the package; a category after its packages; the repository, and then commits.
-/

namespace EbuildAudit.Repository

def nonCategories : List String :=
  ["profiles", "metadata", "eclass", "licenses", "scripts", "distfiles", "packages"]

def isHidden (name : String) : Bool :=
  name.toList.head? = some '.'

def isCategoryDir (name : String) : Bool :=
  !isHidden name && !nonCategories.contains name

def entriesAt (files : FileTree) (path : String) : List (String × Entry) :=
  (files.list path).toOption.getD []

def byName (a b : String × Entry) : Bool :=
  a.1 ≤ b.1

def visible (entries : List (String × Entry)) : List (String × Entry) :=
  (entries.filter (!isHidden ·.1)).mergeSort byName

def visibleDirs (files : FileTree) (path : String) : List String :=
  ((visible (entriesAt files path)).filter (·.2.isDir)).map (·.1)

def wellNamed? (package fileName : String) : Option Version :=
  match Version.splitPackage? (Path.splitExtension fileName).1 with
  | some (name, version) => if name = package then some version else none
  | none => none

structure EbuildFile where
  key : String
  version : Version
  path : String
  deriving Repr

def ebuildFile? (path : String) : Option EbuildFile := do
  let fileName ← Path.fileName? path
  let dir ← Path.parent? path
  let package ← Path.fileName? dir
  let category ← Path.fileName? (← Path.parent? dir)
  let version ← wellNamed? package fileName
  some { key := category ++ "/" ++ package, version, path }

end EbuildAudit.Repository

namespace EbuildAudit

structure InvalidTarget where
  pattern : String
  cause : Glob.PatternError
  deriving DecidableEq, Repr

def InvalidTarget.message (e : InvalidTarget) : String :=
  "invalid target pattern " ++ Text.quoted e.pattern ++ ": " ++ e.cause.message

structure Restriction where
  patterns : List Glob.Pattern

namespace Restriction

def none : Restriction :=
  ⟨[]⟩

def pattern (target : String) : Except InvalidTarget Glob.Pattern :=
  let trimmed := String.ofList (Text.dropEndWhile (· = '/') target.toList)
  match Glob.Pattern.parse trimmed with
  | .ok p => .ok p
  | .error cause => .error ⟨trimmed, cause⟩

def ofTargets (targets : List String) : Except InvalidTarget Restriction := do
  return ⟨← targets.mapM pattern⟩

def isEmpty (r : Restriction) : Bool :=
  r.patterns.isEmpty

def targets (r : Restriction) (key : String) : Bool :=
  r.patterns.any (·.matches key)

def allowsCategory (r : Restriction) (category : String) : Bool :=
  r.isEmpty || r.targets category

def allowsPackage (r : Restriction) (category package : String) : Bool :=
  r.allowsCategory category || r.targets (category ++ "/" ++ package)

end Restriction

end EbuildAudit

namespace EbuildAudit.Repository

structure Source where
  root : String
  restriction : Restriction
  commits : List String

def byVersion (a b : Version × String) : Bool :=
  (a.1.order b.1).then (compare a.2 b.2) != .gt

def packageVersions (files : FileTree) (dir package : String) : List (Version × String) :=
  let found := (entriesAt files dir).filterMap fun (name, _) =>
    if Path.extension? name = some "ebuild" then
      (wellNamed? package name).map fun version => (version, name)
    else none
  (found.mergeSort byVersion).map fun (version, name) => (version, Path.join dir name)

namespace Source

def packageUnits (files : FileTree) (root category package : String) : List ScanUnit :=
  let dir := Path.join (Path.join root category) package
  let versions := packageVersions files dir package
  versions.map (fun (version, path) => ⟨.version category package version.text, path, 0⟩) ++
    [⟨.package category package, dir, versions.length⟩]

def categoryUnits (files : FileTree) (s : Source) (category : String) : List ScanUnit :=
  let dir := Path.join s.root category
  let packages := (visibleDirs files dir).filter (s.restriction.allowsPackage category)
  packages.flatMap (packageUnits files s.root category) ++
    if s.restriction.allowsCategory category then [⟨.category category, dir, packages.length⟩]
    else []

def categories (files : FileTree) (s : Source) : List String :=
  (visibleDirs files s.root).filter isCategoryDir

/-- The repository itself is among the units only of a scan without targets. -/
def units (files : FileTree) (s : Source) : List ScanUnit :=
  let categories := s.categories files
  categories.flatMap (s.categoryUnits files) ++
    (if s.restriction.isEmpty then [⟨.repository, s.root, categories.length⟩] else []) ++
    s.commits.map fun hash => ⟨.commit hash, s.root, 0⟩

end Source

end EbuildAudit.Repository
