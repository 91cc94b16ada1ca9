import EbuildAudit.CommandLine.Arguments
import EbuildAudit.Config.Effective
import EbuildAudit.Report.Sink
import EbuildAudit.Repository.Source
import EbuildAudit.Scan.Protocol

namespace EbuildAudit.CommandLine

open Report

structure Written where
  code : Nat
  out : String
  err : String
  files : FileTree

structure World where
  files : FileTree
  color : Bool
  workers : Nat
  grammar : Grammar

def programVersion : String := "0.1.0"

def errorLine (color : Bool) (message : String) : String :=
  paint color [.red, .bold] "error:" ++ " " ++ message ++ "\n"

def noteLine (color : Bool) (message : String) : String :=
  paint color [.cyan, .bold] "note:" ++ " " ++ message ++ "\n"

def padded (width : Nat) (s : String) : String :=
  s ++ String.ofList (List.replicate (width - s.length) ' ')

def checkLine (c : Check) : String :=
  padded 20 c.name ++ " " ++ padded 10 c.category ++ " " ++ padded 10 c.scope.name ++ " " ++
    Text.joinWith "," c.requiredAddons ++ "\n"

def scopeLine (s : Scope) : String :=
  match s.child? with
  | some child => s.name ++ " (contains " ++ child.name ++ ")\n"
  | none => s.name ++ "\n"

def kindLine (check kind : String) : String :=
  padded 32 kind ++ " " ++ check ++ "\n"

def scannerKinds : List String :=
  ["InternalError", "SkippedCheck", "UnreadableUnit"]

def listing (checks : List Check) : Listing → String
  | .checks => String.join (checks.map checkLine)
  | .scopes => String.join (Scope.all.map scopeLine)
  | .results =>
    String.join (checks.flatMap fun c => c.knownKinds.map (kindLine c.name)) ++
      String.join (scannerKinds.map (kindLine Scan.scannerName))

def ScanArguments.overrides (a : ScanArguments) : Config.Overrides where
  repoRoot := a.repoRoot
  jobs := a.jobs
  output := a.output
  checks := a.checks
  skipChecks := a.skipChecks
  noCache := a.noCache
  cacheDir := a.cacheDir

structure Prepared where
  plan : Plan
  addons : List Addon
  source : Repository.Source

def prepare (e : Config.Effective) (a : ScanArguments) : Except String Prepared := do
  let registry ← Registry.builtin.mapError PlanError.message
  let plan ← (registry.plan (.ofLists e.checks e.skipChecks)).mapError PlanError.message
  let restriction ← (Restriction.ofTargets a.targets).mapError InvalidTarget.message
  return ⟨plan, registry.addonsFor plan, ⟨e.repoRoot, restriction, a.commits⟩⟩

def profilesNote (w : World) (e : Config.Effective) : String :=
  if w.files.isDir (Path.join e.repoRoot "profiles") then ""
  else noteLine w.color (e.repoRoot ++ " has no profiles/ directory; is it an ebuild repository?")

def store (w : World) (e : Config.Effective) (addons : List Addon) : Store :=
  .new addons w.files e.repoRoot ⟨e.advisoriesEnabled, e.advisoryDir⟩ .ebuilds
    (if e.cacheEnabled then some ⟨e.cacheDir⟩ else none)

def reportText (color : Bool) (mode : Config.OutputMode) (r : Scan.Result) : String :=
  match mode with
  | .human => humanText color r.issues r.summary
  | .json => jsonText r.issues r.summary

/-- The exit code says whether there were errors among the issues. -/
def runScan (w : World) (a : ScanArguments) : Written :=
  match Config.Effective.resolve w.files a.overrides with
  | .error e => ⟨2, "", errorLine w.color e.message, w.files⟩
  | .ok e =>
    let note := profilesNote w e
    match prepare e a with
    | .error message => ⟨2, "", note ++ errorLine w.color message, w.files⟩
    | .ok p =>
      let options := Scan.Options.ofWorkers (e.jobs.getD w.workers)
      let (result, s) := Scan.run p.plan w.grammar options (p.source.units w.files)
        (store w e p.addons)
      let code := if 0 < result.summary.errors then 1 else 0
      ⟨code, reportText w.color e.output result, note, s.files⟩

def runClear (w : World) (repoRoot cacheDir : Option String) : Written :=
  match Config.Effective.resolve w.files ⟨repoRoot, none, none, [], [], false, cacheDir⟩ with
  | .error e => ⟨2, "", errorLine w.color e.message, w.files⟩
  | .ok e =>
    match Cache.clear ⟨e.cacheDir⟩ w.files with
    | (files, .ok n) =>
      ⟨0, "removed " ++ toString n ++ " cache entries from " ++ e.cacheDir ++ "\n", "", files⟩
    | (files, .error fault) => ⟨1, "", errorLine w.color fault.message, files⟩

def runList (w : World) (what : Listing) : Written :=
  match Registry.builtin with
  | .ok registry => ⟨0, listing registry.checks what, "", w.files⟩
  | .error e => ⟨2, "", errorLine w.color e.message, w.files⟩

def run (w : World) : Command → Written
  | .version => ⟨0, programVersion ++ "\n", "", w.files⟩
  | .scan a => runScan w a
  | .list what => runList w what
  | .clearCache repoRoot cacheDir => runClear w repoRoot cacheDir

end EbuildAudit.CommandLine
