import EbuildAudit.Check.Basic
import EbuildAudit.Dependency.Atom
import EbuildAudit.Dependency.Expr
import EbuildAudit.Dependency.Reference

namespace EbuildAudit.Check

open Dependency Text

def checkedVariables : List String :=
  ["DEPEND", "BDEPEND", "RDEPEND", "PDEPEND", "IDEPEND"]

def implicitBeginnings : List String :=
  ["elibc_", "kernel_", "userland_", "abi_"]

def isImplicit (flag : String) : Bool :=
  implicitBeginnings.any (startsWith · flag)

def unstatedFlags (metadata : Ebuild.Metadata) (flags : List String) : List String :=
  Ascending.ofList (flags.filter fun flag => !metadata.hasFlag flag && !isImplicit flag)

def variableIssue (ctx : CheckContext) (metadata : Ebuild.Metadata) (kind : String)
    (severity : Severity) (name message : String) : Issue :=
  (Issue.new "DependencyCheck" kind ctx.unit severity (name ++ ": " ++ message)).placed
    ((metadata.lineOf? name).getD 1) 1

def unstated (ctx : CheckContext) (metadata : Ebuild.Metadata) (name : String)
    (flags : List String) : List Issue :=
  let missing := unstatedFlags metadata flags
  if missing.isEmpty then []
  else [variableIssue ctx metadata "UnstatedIuse" .error name
    ("unstated flag(s): " ++ joinWith ", " missing)]

structure LackingFlag where
  key : String
  flag : String
  versions : List String
  deriving DecidableEq, Repr

namespace LackingFlag

def isSame (a b : LackingFlag) : Bool :=
  a.key == b.key && a.flag == b.flag

def message (l : LackingFlag) : String :=
  l.key ++ "[" ++ l.flag ++ "]: USE flag '" ++ l.flag ++ "' missing from version(s): " ++
    joinWith ", " l.versions

end LackingFlag

def matchingVersions (index : Package.Index) (atom : Atom) : List Package.IndexedVersion :=
  (index.versions atom.key).filter fun v => v.parsed?.any atom.matchesVersion

def lackingFlagsOf (index : Package.Index) (atom : Atom) : List LackingFlag :=
  let targets := matchingVersions index atom
  (atom.useDeps.filter (·.default.isNone)).filterMap fun dep =>
    let lacking := targets.filter (!·.hasFlag dep.flag)
    if lacking.isEmpty then none else some ⟨atom.key, dep.flag, lacking.map (·.version)⟩

/-- Of several atoms that ask for the same flag of the same package the first one counts. -/
def lackingFlags (index : Package.Index) (atoms : List Atom) : List LackingFlag :=
  let all := (atoms.filter (!·.blocker)).flatMap (lackingFlagsOf index)
  (all.foldl (fun done l => if done.any l.isSame then done else l :: done) []).reverse

/-- The issues of one dependency variable, of the value that is left when it is expanded. -/
def dependencyIssues (ctx : CheckContext) (metadata : Ebuild.Metadata) (index : Package.Index)
    (name value : String) : List Issue :=
  match parseDepend (expandReferences metadata.depends value) with
  | .error e => [variableIssue ctx metadata "BadDependency" .error name (dependMessage e)]
  | .ok nodes =>
    unstated ctx metadata name (Expr.conditionalsOf nodes) ++
      (lackingFlags index (Expr.leavesOf nodes)).map fun l =>
        variableIssue ctx metadata "MissingUseDepDefault" .warning name l.message

def bareFlag (leaf : String) : String :=
  String.ofList (leaf.toList.dropWhile (· = '!'))

def requiredUseIssues (ctx : CheckContext) (metadata : Ebuild.Metadata) : List Issue :=
  if (trim metadata.requiredUse).isEmpty then []
  else
    match parseRequiredUse (expandReferences metadata.depends metadata.requiredUse) with
    | .error e =>
      [variableIssue ctx metadata "BadDependency" .error "REQUIRED_USE" (requiredUseMessage e)]
    | .ok nodes =>
      unstated ctx metadata "REQUIRED_USE"
        (Expr.conditionalsOf nodes ++ (Expr.leavesOf nodes).map bareFlag)

def dependencies : Check where
  name := "DependencyCheck"
  category := "depend"
  scope := .version
  requiredAddons := [.packages]
  knownKinds := ["MissingUseDepDefault", "UnstatedIuse", "BadDependency"]
  run ctx := do
    let metadata ← ctx.needMetadata
    let index ← needAddon AddonValue.packages? .packages
    let issues := checkedVariables.flatMap fun name =>
      match metadata.depends.lookup name with
      | some value => dependencyIssues ctx metadata index name value
      | none => []
    return issues ++ requiredUseIssues ctx metadata

end EbuildAudit.Check
