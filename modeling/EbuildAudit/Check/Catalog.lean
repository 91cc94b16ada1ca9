import EbuildAudit.Check.Basic
import EbuildAudit.Check.Profiles
import EbuildAudit.Check.Python
import EbuildAudit.Check.Shell

namespace EbuildAudit.Check

open Text

def isLive (version : String) : Bool :=
  startsWith "9999" version

def keywordArches (keywords : List String) : List String :=
  Ascending.ofList ((keywords.filter fun k => !startsWith "-" k && !k.toList.contains '*').map
    stableArch)

def bareKeyword (keyword : String) : String :=
  String.ofList (keyword.toList.dropWhile fun c => c == '~' || c == '-')

def droppedArches (older : List Package.IndexedVersion) (newest : Package.IndexedVersion) :
    List String :=
  let current := newest.keywords.map bareKeyword
  (keywordArches (older.flatMap (·.keywords))).filter (!current.contains ·)

/-- What is missing from the newest version, unless it rules out everything. -/
def droppedIn (versions : List Package.IndexedVersion) :
    Option (Package.IndexedVersion × List String) := do
  let versions := versions.filter (!isLive ·.version)
  let newest ← versions.getLast?
  if newest.keywords.contains "-*" then none
  let dropped := droppedArches versions.dropLast newest
  if dropped.isEmpty then none else some (newest, dropped)

def keywords : Check where
  name := "KeywordsCheck"
  category := "keywords"
  scope := .package
  requiredAddons := [.packages]
  knownKinds := ["DroppedKeywords"]
  run ctx := do
    match ctx.unit.id.packageKey? with
    | none => return []
    | some key =>
      let index ← needAddon AddonValue.packages? .packages
      match droppedIn (index.versions key) with
      | none => return []
      | some (newest, dropped) =>
        return [Issue.new "KeywordsCheck" "DroppedKeywords" ctx.unit .warning
          (key ++ "-" ++ newest.version ++ ": dropped keyword(s): " ++ joinWith ", " dropped)]

def versionArches (metadata : Ebuild.Metadata) : List String :=
  Ascending.ofList ((metadata.keywords.filter (!startsWith "-" ·)).map stableArch)

def affectedArches? (arches : List String) (v : Advisory.Vulnerability) : Option (List String) :=
  if v.arches.isEmpty then some arches
  else
    let hit := v.arches.filter arches.contains
    if hit.isEmpty then none else some (hit.mergeSort (· ≤ ·))

def vulnerabilityMessage (v : Advisory.Vulnerability) (arches : List String) : String :=
  "vulnerable via " ++ v.advisory ++ ", keyword(s): " ++ joinWith ", " arches

def vulnerableMessages (index : Advisory.Index) (metadata : Ebuild.Metadata) (key : String)
    (version : Version) : List String :=
  ((index.ofPackage key).filter (·.affects version)).filterMap fun v =>
    (affectedArches? (versionArches metadata) v).map (vulnerabilityMessage v)

def advisories : Check where
  name := "GlsaCheck"
  category := "glsa"
  scope := .version
  requiredAddons := [.advisories]
  knownKinds := ["VulnerablePackage"]
  run ctx := do
    match ctx.unit.id with
    | .version category package text =>
      match Version.parse? text with
      | none => return []
      | some version =>
        let metadata ← ctx.needMetadata
        let index ← needAddon AddonValue.advisories? .advisories
        return (vulnerableMessages index metadata (category ++ "/" ++ package) version).map
          (Issue.new "GlsaCheck" "VulnerablePackage" ctx.unit .error)
    | _ => return []

def builtin : List Check :=
  [shellSyntax, globs, pathVariables, eapiCommands, dependencies, python, advisories, keywords,
    shellSummary, categories, repoProfiles, profiles]

end EbuildAudit.Check
