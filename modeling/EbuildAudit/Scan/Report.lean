import EbuildAudit.Registry

namespace EbuildAudit.Scan

structure UnitReport where
  notices : List Issue
  issues : List Issue
  deriving DecidableEq, Repr

namespace UnitReport

def empty : UnitReport :=
  ⟨[], []⟩

def append (a b : UnitReport) : UnitReport :=
  ⟨a.notices ++ b.notices, a.issues ++ b.issues⟩

end UnitReport

def scannerName : String := "scanner"

def skipNotice? (check : String) (unit : ScanUnit) (addon : AddonId) : Outcome → Option Issue
  | .ready _ => none
  | .failed reason =>
    some (.new check "InternalError" unit .error
      ("check skipped, addon " ++ addon ++ " failed: " ++ reason))
  | .disabled reason =>
    some (.new check "SkippedCheck" unit .info
      ("check skipped, addon " ++ addon ++ " disabled: " ++ reason))

def firstSkip (check : String) (unit : ScanUnit) : List AddonId → StateM Store (Option Issue)
  | [] => return none
  | addon :: addons => do
    match skipNotice? check unit addon (← Store.outcome addon) with
    | some notice => return some notice
    | none => firstSkip check unit addons

def faultText : CheckFault → String
  | .crashed cause => "check panicked: " ++ cause.message
  | fault => "check failed: " ++ fault.message

def segment (check : String) (unit : ScanUnit) : Except CheckFault (List Issue) → List Issue
  | .ok issues => issues
  | .error fault => [.new check "InternalError" unit .error (faultText fault)]

def runCheck (ctx : CheckContext) (c : Check) : StateM Store UnitReport := do
  match ← firstSkip c.name ctx.unit c.requiredAddons with
  | some notice => return ⟨[notice], []⟩
  | none => return ⟨[], segment c.name ctx.unit (← Store.run (c.run ctx).run)⟩

def runChecks (ctx : CheckContext) : List Check → StateM Store UnitReport
  | [] => return .empty
  | c :: checks => do
    let report ← runCheck ctx c
    return report.append (← runChecks ctx checks)

def unreadable (unit : ScanUnit) (reason : String) : UnitReport :=
  ⟨[], [.new scannerName "UnreadableUnit" unit .error ("unreadable: " ++ reason)]⟩

def metadata (unit : ScanUnit) : StateM Store (Except LoadFault (Option Ebuild.Metadata)) := do
  if unit.scope = .version then
    let s ← get
    return (s.load s.files unit.path).map some
  else return .ok none

def unitReport (plan : Plan) (grammar : Grammar) (unit : ScanUnit) (children : List Issue)
    (childCount : Nat) : StateM Store UnitReport := do
  let checks := plan.checksFor unit.scope
  if checks.isEmpty then return .empty
  else
    match ← metadata unit with
    | .error fault => return unreadable unit fault.message
    | .ok metadata => runChecks (.new grammar unit metadata children childCount) checks

structure Output where
  noticed : List String
  issues : List Issue
  summary : Summary
  deriving DecidableEq, Repr

namespace Output

def empty : Output :=
  ⟨[], [], .empty⟩

def emit (o : Output) (issue : Issue) : Output :=
  { o with issues := issue :: o.issues, summary := o.summary.record issue }

/-- Of the notices of a check only the first one gets out. -/
def emitNotice (o : Output) (notice : Issue) : Output :=
  if o.noticed.contains notice.check then o
  else { o with noticed := notice.check :: o.noticed }.emit notice

def emitReport (o : Output) (report : UnitReport) : Output :=
  let o := report.issues.foldl emit (report.notices.foldl emitNotice o)
  { o with summary := { o.summary with units := o.summary.units + 1 } }

end Output

end EbuildAudit.Scan
