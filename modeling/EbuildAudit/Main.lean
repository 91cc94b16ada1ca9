import EbuildAudit.CommandLine.Program
import EbuildAudit.Shell.Parser

namespace EbuildAudit.CommandLine

def located (path : String) :=
  (· / path) <$> IO.currentDir

def nanoseconds (t : IO.FS.SystemTime) : Int :=
  t.sec * 1000000000 + t.nsec.toNat

def sortedByName (entries : List (String × Entry)) : List (String × Entry) :=
  entries.mergeSort fun a b => !(b.1 < a.1)

/--
What stands at a path. A directory that is met again below itself counts as empty, and what cannot
be read counts as missing.
-/
partial def picture (above : List String) (path : String) : IO (Option Entry) := do
  let place ← located path
  try
    let about ← place.metadata
    match about.type with
    | .dir =>
      let real := (← IO.FS.realPath place).toString
      if above.contains real then return some (.dir [])
      let entries ← (← place.readDir).toList.filterMapM fun e => do
        return (← picture (real :: above) (Path.join path e.fileName)).map (e.fileName, ·)
      return some (.dir (sortedByName entries))
    | .file => return some (.file (← IO.FS.readBinFile place) (nanoseconds about.modified))
    | _ => return none
  catch _ => return none

def withPicture (t : FileTree) (path : String) : IO FileTree := do
  match ← picture [] path with
  | none => return t
  | some entry =>
    let led := ((Path.parent? path).bind fun dir => (t.createDirs dir).toOption).getD t
    return led.setAt (led.place path) (some entry)

def pathsUpwards : Nat → String → List String
  | 0, path => [path]
  | n + 1, path => path :: ((Path.parent? path).map (pathsUpwards n)).getD []

def withRootMarks (t : FileTree) (start : String) : IO FileTree :=
  (pathsUpwards start.length start).foldlM (fun t dir => do
    let t := (t.createDirs dir).toOption.getD t
    let t ← Config.fileNames.foldlM (fun t name => withPicture t (Path.join dir name)) t
    let t ← withPicture t (Path.join (Path.join dir "profiles") "repo_name")
    withPicture t (Path.join dir ".git")) t

def filesFor (t : FileTree) (overrides : Config.Overrides) : IO FileTree := do
  let t ← withRootMarks t (overrides.repoRoot.getD ".")
  match Config.Effective.resolve t overrides with
  | .error _ => return t
  | .ok e => ([e.repoRoot, e.cacheDir] ++ e.advisoryDir.toList).foldlM withPicture t

def overridesOf : Command → Option Config.Overrides
  | .scan a => some a.overrides
  | .clearCache repoRoot cacheDir => some ⟨repoRoot, none, none, [], [], false, cacheDir⟩
  | .version | .list _ => none

def filesIn (t : FileTree) (dir : String) : List (String × ByteArray) :=
  ((t.list dir).toOption.getD []).filterMap fun (name, entry) =>
    match entry with
    | .file bytes _ => some (name, bytes)
    | .dir _ => none

def writeBack (dir : String) (before after : FileTree) : IO Unit := do
  let place ← located dir
  let (old, new) := (filesIn before dir, filesIn after dir)
  let changed := new.filter fun (name, bytes) =>
    (old.lookup name).map (·.toList) != some bytes.toList
  if after.isDir dir then IO.FS.createDirAll place
  for (name, bytes) in changed do
    IO.FS.writeBinFile (place / name) bytes
  for (name, _) in old do
    if (new.lookup name).isNone then IO.FS.removeFile (place / name)

def runOnFiles (c : Command) : IO Written := do
  let here := (Text.splitOn '/' (← IO.currentDir).toString).filter (!·.isEmpty)
  let empty := { FileTree.empty with cwd := here }
  let bare := (empty.createDirs ".").toOption.getD empty
  let overrides := overridesOf c
  let files ← (overrides.map (filesFor bare)).getD (pure bare)
  let color := (← IO.getEnv "NO_COLOR").isNone
  let written := run ⟨files, color, 1, Shell.parse⟩ c
  match overrides.map (Config.Effective.resolve files) with
  | some (.ok e) => writeBack e.cacheDir files written.files
  | _ => pure ()
  return written

end EbuildAudit.CommandLine

open EbuildAudit.CommandLine in
def main (arguments : List String) : IO UInt32 := do
  match Arguments.parse arguments with
  | .error e =>
    (← IO.getStderr).putStrLn
      ("usage: pkgscan scan | show | cache clear | version (" ++ e.name ++ ")")
    return e.exitCode.toUInt32
  | .ok a =>
    let written ← runOnFiles a.command
    (← IO.getStdout).putStr written.out
    (← IO.getStderr).putStr written.err
    return written.code.toUInt32
