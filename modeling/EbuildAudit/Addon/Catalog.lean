import EbuildAudit.Addon.Basic
import EbuildAudit.Addon.Store
import EbuildAudit.Advisory.Index
import EbuildAudit.Profile.Codec
import EbuildAudit.Profile.Load
import EbuildAudit.Repository.Search

namespace EbuildAudit.Package

open Repository (EbuildFile)

def loadFile (load : Loader) (files : FileTree) (file : EbuildFile) :
    Except Crash (Option (EbuildFile × IndexedVersion)) :=
  match load files file.path with
  | .ok metadata => .ok (some (file, ⟨file.version.text, metadata.iuse, metadata.keywords⟩))
  | .error (.error _) => .ok none
  | .error (.crash cause) => .error cause

def byVersion (a b : EbuildFile × IndexedVersion) : Bool :=
  a.1.version.notAfter b.1.version

def Index.ofFiles (found : List (EbuildFile × IndexedVersion)) : Index :=
  let grouped := found.foldl (fun entries f => Ascending.push f.1.key f entries) []
  ⟨grouped.map fun (key, versions) => (key, (versions.mergeSort byVersion).map (·.2))⟩

def Index.load (load : Loader) (files : FileTree) (root : String) : Except Crash Index := do
  return .ofFiles ((← (Repository.ebuildFiles files root).mapM (loadFile load files)).filterMap id)

end EbuildAudit.Package

namespace EbuildAudit.Addon

def packages : Addon where
  id := .packages
  dependsOn := []
  persistVersion := some 1
  compute s := .done ((Package.Index.load s.load s.files s.root).map .packages |>.mapError .crashed)
  encode value := value.packages?.map Package.Index.encode
  decode j := (Package.Index.decode j).map .packages

def profiles : Addon where
  id := .profiles
  dependsOn := []
  persistVersion := some 2
  compute s := .done <|
    match Profile.Data.load s.files s.root with
    | .ok data => .ok (.profiles data)
    | .error base => .error (.failed (Profile.missingMessage base))
  encode value := value.profiles?.map Profile.Data.encode
  decode j := (Profile.Data.decode j).map .profiles

def useFlags : Addon where
  id := .useFlags
  dependsOn := [.profiles]
  persistVersion := none
  compute _ := do
    match ← Query.value AddonValue.profiles? .profiles with
    | .ok data => return .ok (.useFlags (.ofData data))
    | .error fault => return .error (.ofFault fault)
  encode _ := none
  decode _ := none

def loadAdvisories (s : Surroundings) : Except AddonStop AddonValue :=
  let dir := s.settings.advisoryDir.getD (Path.join (Path.join s.root "metadata") "glsa")
  if !s.settings.advisoriesEnabled then .error (.disabled "turned off in configuration")
  else if !s.files.isDir dir then .error (.disabled "no available glsa source")
  else
    match Advisory.Index.load s.files dir with
    | .ok index => .ok (.advisories index)
    | .error cause => .error (.failed cause.message)

def advisories : Addon where
  id := .advisories
  dependsOn := []
  persistVersion := none
  compute s := .done (loadAdvisories s)
  encode _ := none
  decode _ := none

def builtin : List Addon :=
  [packages, profiles, useFlags, advisories]

end EbuildAudit.Addon
