import EbuildAudit.Profile.Data
import EbuildAudit.Repository.Search
import EbuildAudit.Text.Basic
import EbuildAudit.Text.Character

namespace EbuildAudit.Profile

open Text

def entryFiles : List (String × EntryKind) :=
  [("packages", .atoms),
    ("package.mask", .atoms),
    ("package.unmask", .atoms),
    ("package.deprecated", .atoms),
    ("package.keywords", .atomKeywords),
    ("package.accept_keywords", .atomKeywords),
    ("package.use", .atomUse),
    ("package.use.force", .atomUse),
    ("package.use.stable.force", .atomUse),
    ("package.use.mask", .atomUse),
    ("package.use.stable.mask", .atomUse),
    ("use.force", .use),
    ("use.stable.force", .use),
    ("use.mask", .use),
    ("use.stable.mask", .use)]

def nonProfiles : List String :=
  ["desc", "updates"]

def dataLines (text : String) : List (Nat × String) :=
  let stripped := (lineLists text.toList).map fun line =>
    trim (String.ofList (line.takeWhile (· != '#')))
  (stripped.zipIdx 1).filterMap fun (line, number) =>
    if line.isEmpty then none else some (number, line)

def readLines (files : FileTree) (path : String) : List (Nat × String) :=
  match files.readText path with
  | .ok text => dataLines text
  | .error _ => []

def readNames (files : FileTree) (path : String) : List String :=
  (readLines files path).map (·.2)

def description (number : Nat) (text : String) : Description ⊕ MalformedLine :=
  match words text with
  | [arch, path, status] => .inl ⟨arch, trimSlashes path, status, number⟩
  | _ => .inr ⟨number, text⟩

def described (files : FileTree) (path : String) : List String :=
  (readNames files path).filterMap fun text => (cut? " - " text).map (·.1)

def localFlags (files : FileTree) (path : String) : List (String × String) :=
  (described files path).filterMap fun head => cut? ":" (trim head)

def groupFlags (files : FileTree) (dir name : String) : List String :=
  if Path.extension? name = some "desc" then
    let group := lowercase (Path.splitExtension name).1
    (described files (Path.join dir name)).map fun flag => group ++ "_" ++ trim flag
  else []

def expandedFlags (files : FileTree) (base : String) : List String :=
  let dir := Path.join base "desc"
  (Repository.entriesAt files dir).flatMap fun (name, _) => groupFlags files dir name

def categoryNames (files : FileTree) (root : String) : List String :=
  ((Repository.entriesAt files root).filter fun (name, entry) =>
    entry.isDir && Repository.isCategoryDir name).map (·.1)

def replaceBackslashes (s : String) : String :=
  String.ofList (s.toList.map fun c => if c = '\\' then '/' else c)

def profileDirs (files : FileTree) (root : String) : List String :=
  let base := Path.join root "profiles"
  let dirs := (Repository.profilePaths files root).filter files.isDir
  let relative := dirs.filterMap fun path => (Path.relative? path base).map replaceBackslashes
  Ascending.ofList (relative.filter fun dir =>
    !nonProfiles.contains ((splitOn '/' dir).headD ""))

def parentsAt (files : FileTree) (base dir : String) : List String :=
  (readNames files (Path.join (Path.join base dir) "parent")).filterMap (resolveRelative dir)

def firstLineAt (files : FileTree) (base dir name : String) : Option String :=
  (readNames files (Path.join (Path.join base dir) name)).head?

def entriesOf (files : FileTree) (base dir : String) : List ProfileEntry :=
  entryFiles.flatMap fun (name, kind) =>
    let here := if dir.isEmpty then base else Path.join base dir
    (readLines files (Path.join here name)).map fun (line, text) =>
      { file := if dir.isEmpty then name else dir ++ "/" ++ name
        kind
        line
        tokens := words text }

def Data.load (files : FileTree) (root : String) : Except String Data :=
  let base := Path.join root "profiles"
  if !files.isDir base then .error base
  else
    let file (name : String) : String := Path.join base name
    let descriptions := (readLines files (file "profiles.desc")).map fun (n, text) =>
      description n text
    let dirs := profileDirs files root
    .ok {
      categories := readNames files (file "categories")
      categoryDirs := Ascending.ofList (categoryNames files root)
      arches := Ascending.ofList (readNames files (file "arch.list"))
      profiles := descriptions.filterMap Sum.getLeft?
      malformed := descriptions.filterMap Sum.getRight?
      globalUse := Ascending.ofList ((described files (file "use.desc")).map trim)
      localUse := (localFlags files (file "use.local.desc")).foldl (fun entries (package, flag) =>
        Ascending.modify [] (Ascending.insert flag) package entries) []
      useExpand := Ascending.ofList (expandedFlags files base)
      dirs
      parents := (dirs.map fun dir => (dir, parentsAt files base dir)).filter (!·.2.isEmpty)
      eapis := dirs.filterMap fun dir =>
        (firstLineAt files base dir "eapi").map fun eapi => (dir, eapi)
      deprecated := dirs.filterMap fun dir =>
        (firstLineAt files base dir "deprecated").map fun name => (dir, trimSlashes name)
      entries := ("" :: dirs).flatMap (entriesOf files base) }

def missingMessage (base : String) : String :=
  "no profiles directory at " ++ base

end EbuildAudit.Profile
