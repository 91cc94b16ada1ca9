import EbuildAudit.Check.Dependency
import EbuildAudit.Profile.Data

namespace EbuildAudit.Check

open Dependency Text

def categories : Check where
  name := "CategoryCheck"
  category := "profiles"
  scope := .category
  requiredAddons := [.profiles]
  knownKinds := ["UnknownCategory"]
  run ctx := do
    match ctx.unit.id with
    | .category name =>
      let data ← needAddon AddonValue.profiles? .profiles
      if data.categories.contains name then return []
      else return [.new "CategoryCheck" "UnknownCategory" ctx.unit .warning
        ("unknown category dir: " ++ name)]
    | _ => return []

def inQuotes (items : List String) : String :=
  joinWith ", " (items.map fun s => "'" ++ s ++ "'")

def missingCategories (data : Profile.Data) : List String :=
  Ascending.ofList (data.categories.filter (!data.categoryDirs.contains ·))

def archesWithoutProfiles (data : Profile.Data) : List String :=
  data.arches.filter fun arch => !data.profiles.any (·.arch == arch)

/-- The last directory a profile inherits from that has a newer EAPI, which is compared as text. -/
def newerParent? (data : Profile.Data) (path : String) : Option String :=
  ((data.stack path).filter fun dir => data.eapi path < data.eapi dir).getLast?

def existingProfiles (data : Profile.Data) : List Profile.Description :=
  data.profiles.filter fun d => data.dirs.contains d.path

/-- The directories that lie on the way from the top to something a listed profile inherits. -/
def usedDirs (data : Profile.Data) : List String :=
  (existingProfiles data).flatMap fun d => (data.stack d.path).flatMap Profile.dirParents

def unlistedDirs : List String :=
  ["embedded"]

def unusedDirs (data : Profile.Data) : List String :=
  let used := usedDirs data
  data.dirs.filter fun dir => !unlistedDirs.contains dir && !used.contains dir

def listed (items : List String) (issue : List String → Issue) : List Issue :=
  if items.isEmpty then [] else [issue items]

theorem eq_of_mem_listed {items : List String} {make : List String → Issue} {issue : Issue}
    (h : issue ∈ listed items make) : issue = make items := by
  rw [listed] at h
  split at h
  · cases h
  · exact List.mem_singleton.1 h

def malformedMessage (m : Profile.MalformedLine) : String :=
  "profiles.desc, line " ++ toString m.line ++ ": invalid profile line format: '" ++ m.text ++
    "', should be 'arch profile status'"

def laggingMessage (data : Profile.Data) (path parent : String) : String :=
  "'" ++ path ++ "' profile has EAPI " ++ data.eapi path ++ ", '" ++ parent ++
    "' parent has EAPI " ++ data.eapi parent

def unknownArches (data : Profile.Data) : List Profile.Description :=
  if data.arches.isEmpty then []
  else data.profiles.filter fun d => !data.arches.contains d.arch

def repoProfileIssues (unit : ScanUnit) (data : Profile.Data) : List Issue :=
  let issue (kind : String) (severity : Severity) (message : String) : Issue :=
    .new "RepoProfilesCheck" kind unit severity message
  listed (missingCategories data) (fun names => issue "NonexistentCategories" .warning
    ("nonexistent profiles/categories entries: " ++ joinWith ", " names)) ++
  listed (archesWithoutProfiles data) (fun arches => issue "ArchesWithoutProfiles" .warning
    ("arches without profiles: " ++ joinWith ", " arches)) ++
  data.malformed.map (fun m =>
    (issue "ProfileError" .error (malformedMessage m)).placed m.line 1) ++
  (unknownArches data).map (fun d =>
    (issue "ProfileWarning" .warning ("profiles.desc, line " ++ toString d.line ++
      ": unknown arch: '" ++ d.arch ++ "'")).placed d.line 1) ++
  (data.profiles.filter (!data.dirs.contains ·.path)).map (fun d =>
    (issue "NonexistentProfilePath" .error
      ("nonexistent profile path: '" ++ d.path ++ "'")).placed d.line 1) ++
  (existingProfiles data).filterMap (fun d => (newerParent? data d.path).map fun parent =>
    issue "LaggingProfileEapi" .warning (laggingMessage data d.path parent)) ++
  listed (unusedDirs data) (fun dirs => issue "UnusedProfileDirs" .warning
    ("unused profile dirs: " ++ inQuotes dirs))

def repoProfiles : Check where
  name := "RepoProfilesCheck"
  category := "profiles"
  scope := .repository
  requiredAddons := [.profiles]
  knownKinds := ["NonexistentCategories", "ArchesWithoutProfiles", "NonexistentProfilePath",
    "LaggingProfileEapi", "UnusedProfileDirs", "ProfileWarning", "ProfileError"]
  run ctx := do
    return repoProfileIssues ctx.unit (← needAddon AddonValue.profiles? .profiles)

def unknownFlags (isKnown : String → Bool) (flags : List String) : List (List String) :=
  let off := flags.filter (startsWith "-")
  let on := flags.filter (!startsWith "-" ·)
  [Ascending.ofList (off.filter fun flag => !isKnown (String.ofList (flag.toList.drop 1))),
    Ascending.ofList (on.filter (!isKnown ·))]

def wildKeywords : List String :=
  ["*", "~*", "**", "-*"]

def unknownKeywords (arches keywords : List String) : List String :=
  Ascending.ofList (keywords.filter fun k => !wildKeywords.contains k &&
    !arches.contains (stableArch (String.ofList (k.toList.dropWhile (· = '-')))))

def useFaults (entry : Profile.ProfileEntry) (flags : Profile.UseFlags) : List (String × String) :=
  ((unknownFlags flags.isKnown entry.tokens).filter (!·.isEmpty)).map fun unknown =>
    ("UnknownProfileUse",
      "'" ++ entry.file ++ "': unknown USE flag(s): " ++ inQuotes unknown)

def packageUseFaults (entry : Profile.ProfileEntry) (package : String)
    (found : List Package.IndexedVersion) (flags : List String) : List (String × String) :=
  let isAvailable (flag : String) : Bool := found.any (·.hasFlag flag)
  ((unknownFlags isAvailable flags).filter (!·.isEmpty)).map fun unknown =>
    ("UnknownProfilePackageUse", "'" ++ entry.file ++ "': unknown package USE flag(s): '" ++
      package ++ "[" ++ joinWith ", " unknown ++ "]'")

def packageKeywordFaults (entry : Profile.ProfileEntry) (package : String)
    (arches keywords : List String) : List (String × String) :=
  let unknown := unknownKeywords arches keywords
  if unknown.isEmpty then []
  else [("UnknownProfilePackageKeywords", "'" ++ entry.file ++ "': unknown package keyword(s): " ++
    package ++ ": " ++ inQuotes unknown)]

def packageFaults (entry : Profile.ProfileEntry) (index : Package.Index) (arches : List String)
    (first : String) (rest : List String) : List (String × String) :=
  let package := String.ofList (first.toList.dropWhile fun c => c == '-' || c == '*')
  match Atom.parse package with
  | .error _ => []
  | .ok atom =>
    let found := matchingVersions index atom
    if found.isEmpty then
      [("UnknownProfilePackage", "'" ++ entry.file ++ "': unknown package: '" ++ package ++ "'")]
    else
      match entry.kind with
      | .atomUse => packageUseFaults entry package found rest
      | .atomKeywords => packageKeywordFaults entry package arches rest
      | .atoms | .use => []

def entryFaults (entry : Profile.ProfileEntry) (index : Package.Index) (flags : Profile.UseFlags)
    (arches : List String) : List (String × String) :=
  match entry.tokens with
  | [] => []
  | first :: rest =>
    if entry.kind = .use then useFaults entry flags
    else packageFaults entry index arches first rest

def entriesByFile (entries : List Profile.ProfileEntry) : List Profile.ProfileEntry :=
  (entries.foldl (fun files entry => Ascending.push entry.file entry files) []).flatMap (·.2)

def replacementIssues (unit : ScanUnit) (data : Profile.Data) : List Issue :=
  (data.deprecated.filter fun (_, replacement) => !data.dirs.contains replacement).map
    fun (dir, replacement) => .new "ProfilesCheck" "ProfileError" unit .error
      ("nonexistent replacement '" ++ replacement ++ "' for deprecated profile: '" ++ dir ++ "'")

def entryIssues (unit : ScanUnit) (data : Profile.Data) (index : Package.Index)
    (flags : Profile.UseFlags) : List Issue :=
  (entriesByFile data.entries).flatMap fun entry =>
    (entryFaults entry index flags data.arches).map fun (kind, message) =>
      (Issue.new "ProfilesCheck" kind unit .warning message).placed entry.line 1

def profiles : Check where
  name := "ProfilesCheck"
  category := "profiles"
  scope := .repository
  requiredAddons := [.profiles, .useFlags, .packages]
  knownKinds := ["UnknownProfileUse", "UnknownProfilePackage", "UnknownProfilePackageUse",
    "UnknownProfilePackageKeywords", "ProfileError"]
  run ctx := do
    let data ← needAddon AddonValue.profiles? .profiles
    let flags ← needAddon AddonValue.useFlags? .useFlags
    let index ← needAddon AddonValue.packages? .packages
    return replacementIssues ctx.unit data ++ entryIssues ctx.unit data index flags

end EbuildAudit.Check
