import EbuildAudit.Config.Settings
import EbuildAudit.FileTree
import EbuildAudit.Text.Basic

namespace EbuildAudit.Config

inductive OutputMode
  | human
  | json
  deriving DecidableEq, Repr

def OutputMode.name : OutputMode → String
  | .human => "human"
  | .json => "json"

def OutputMode.parse? (s : String) : Option OutputMode :=
  match String.ofList ((Text.trim s).toList.map Char.toLower) with
  | "human" => some .human
  | "json" => some .json
  | _ => none

inductive ConfigFault
  | malformed
  | unknownOutput (mode : String)
  deriving DecidableEq, Repr

def ConfigFault.message : ConfigFault → String
  | .malformed => "<parse error>"
  | .unknownOutput mode => "unknown output mode " ++ Text.quoted mode ++ " (expected human|json)"

structure InvalidConfig where
  path : String
  fault : ConfigFault
  deriving DecidableEq, Repr

def InvalidConfig.message (e : InvalidConfig) : String :=
  "invalid config file " ++ e.path ++ ": " ++ e.fault.message

def fileNames : List String :=
  ["pkgscan.toml", "pkgscan.yaml", "pkgscan.yml"]

def isRoot (files : FileTree) (dir : String) : Bool :=
  fileNames.any (fun name => files.isFile (Path.join dir name)) ||
    files.isFile (Path.join (Path.join dir "profiles") "repo_name") ||
    files.exists? (Path.join dir ".git")

def rootAbove? (files : FileTree) : Nat → String → Option String
  | 0, _ => none
  | n + 1, dir =>
    if isRoot files dir then some dir else (Path.parent? dir).bind (rootAbove? files n)

/-- The nearest root, or the place where the search began. -/
def detectRoot (files : FileTree) (start : String) : String :=
  (rootAbove? files (start.length + 1) start).getD start

def Settings.ofFile? (name text : String) : Option Settings :=
  let text := (Text.stripStart? "\ufeff" text).getD text
  if name = "pkgscan.toml" then ofToml? text else ofYaml? text

def loadSettings (files : FileTree) (root : String) :
    Except InvalidConfig (Option (String × Settings)) :=
  match fileNames.find? fun name => files.isFile (Path.join root name) with
  | none => .ok none
  | some name =>
    let path := Path.join root name
    match (files.readText path).toOption.bind (Settings.ofFile? name) with
    | some settings => .ok (some (path, settings))
    | none => .error ⟨path, .malformed⟩

structure Overrides where
  repoRoot : Option String
  jobs : Option Nat
  output : Option String
  checks : List String
  skipChecks : List String
  noCache : Bool
  cacheDir : Option String
  deriving DecidableEq, Repr

structure Effective where
  repoRoot : String
  configPath : Option String
  jobs : Option Nat
  output : OutputMode
  checks : List String
  skipChecks : List String
  cacheEnabled : Bool
  cacheDir : String
  advisoriesEnabled : Bool
  advisoryDir : Option String
  deriving DecidableEq, Repr

def defaultCacheDir : String := ".pkgscan/cache"

def effectiveOutput (path : String) : Option String → Except InvalidConfig OutputMode
  | none => .ok .human
  | some s =>
    match OutputMode.parse? s with
    | some mode => .ok mode
    | none => .error ⟨path, .unknownOutput s⟩

def firstGiven (cli file : List String) : List String :=
  if cli.isEmpty then file else cli

def Effective.resolve (files : FileTree) (cli : Overrides) : Except InvalidConfig Effective := do
  let root := detectRoot files (cli.repoRoot.getD ".")
  let loaded ← loadSettings files root
  let settings := (loaded.map (·.2)).getD .empty
  let path := loaded.map (·.1)
  return {
    repoRoot := root
    configPath := path
    jobs := (cli.jobs.or settings.jobs).map (max · 1)
    output := ← effectiveOutput (path.getD root) (cli.output.or settings.output)
    checks := firstGiven cli.checks settings.checks
    skipChecks := firstGiven cli.skipChecks settings.skipChecks
    cacheEnabled := !cli.noCache && settings.cache.enabled.getD true
    cacheDir := Path.join root ((cli.cacheDir.or settings.cache.dir).getD defaultCacheDir)
    advisoriesEnabled := settings.advisories.enabled.getD true
    advisoryDir := settings.advisories.dir.map (Path.join root) }

end EbuildAudit.Config
