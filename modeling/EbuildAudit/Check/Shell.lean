import EbuildAudit.Check.Basic
import EbuildAudit.Shell.Detector

namespace EbuildAudit.Check

open Shell (Detector)

def ofFinding (check : String) (unit : ScanUnit) (f : Shell.Finding) : Issue :=
  (Issue.new check f.kind unit f.severity f.message).placed f.line f.column

def detecting (name : String) (detectors : List Detector) : Check where
  name
  category := "shell"
  scope := .version
  knownKinds := detectors.map Detector.kind
  parsesScript := true
  run ctx := do
    let metadata ← ctx.needMetadata
    match ← ctx.needScript with
    | .error _ => return []
    | .ok tree =>
      return (Shell.analyze detectors ⟨tree, metadata.eapiNumber?⟩).map (ofFinding name ctx.unit)

def globs : Check :=
  detecting "GlobCheck" [.unsafeGlob]

def pathVariables : Check :=
  detecting "PathVariablesCheck" [.unquotedVariable, .missingSlash, .unnecessarySlashStrip]

def eapiCommands : Check :=
  detecting "EapiCommandsCheck" [.bannedCommand]

def shellSyntax : Check where
  name := "ShellSyntaxCheck"
  category := "shell"
  scope := .version
  knownKinds := ["UnparseableScript"]
  reportsParseFailures := true
  run ctx := do
    match ← ctx.needScript with
    | .ok _ => return []
    | .error failure =>
      return [(Issue.new "ShellSyntaxCheck" "UnparseableScript" ctx.unit .error
        ("unparseable script: " ++ failure.message)).placed failure.line failure.column]

def summarized : List String :=
  ["ShellSyntaxCheck", "GlobCheck", "PathVariablesCheck", "EapiCommandsCheck"]

def unitsByKind (issues : List Issue) : List (String × List String) :=
  (issues.filter fun issue => summarized.contains issue.check).foldl (fun entries issue =>
    Ascending.modify [] (Ascending.insert issue.unit) issue.kind entries) []

/-- The kinds of issues that as many units have as there are versions. -/
def kindsEverywhere (issues : List Issue) (versions : Nat) : List String :=
  ((unitsByKind issues).filter fun (_, units) => units.length == versions).map (·.1)

def shellSummary : Check where
  name := "ShellSummaryCheck"
  category := "shell"
  scope := .package
  knownKinds := ["ShellIssueInAllVersions"]
  needsChildren := true
  run ctx :=
    let versions := ctx.childCount
    let kinds := if versions < 2 then [] else kindsEverywhere ctx.children versions
    return kinds.map fun kind =>
      .new "ShellSummaryCheck" "ShellIssueInAllVersions" ctx.unit .info
        (kind ++ " reported in all " ++ toString versions ++ " versions")

end EbuildAudit.Check
