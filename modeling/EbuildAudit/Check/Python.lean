import EbuildAudit.Check.Dependency

namespace EbuildAudit.Check

open Dependency Text

def targetBeginning : String := "python_targets_"

def singleBeginning : String := "python_single_target_"

def pythonEclasses : List String :=
  ["python-r1", "python-single-r1", "python-any-r1"]

def isInterpreter (atom : Atom) : Bool :=
  (atom.category == "dev-lang" && atom.package == "python") ||
    (atom.category == "dev-python" && startsWith "pypy" atom.package)

def interpreter? (metadata : Ebuild.Metadata) (name : String) : Option String := do
  let value ← metadata.depends.lookup name
  let nodes ← (parseDepend (expandReferences metadata.depends value)).toOption
  let atom ← (Expr.leavesOf nodes).find? fun atom => !atom.blocker && isInterpreter atom
  some atom.key

def pythonUser? (metadata : Ebuild.Metadata) : Option (String × String) :=
  (checkedVariables.filterMap fun name =>
    (interpreter? metadata name).map fun key => (name, key)).getLast?

def recommendedEclass (name : String) : String :=
  if name = "RDEPEND" || name = "PDEPEND" then "python-r1 or python-single-r1"
  else "python-any-r1"

def pythonIssue (ctx : CheckContext) (kind message : String) (line : Option Nat) : Issue :=
  (Issue.new "PythonCheck" kind ctx.unit .warning message).placed (line.getD 1) 1

def missingEclass (ctx : CheckContext) (metadata : Ebuild.Metadata) : List Issue :=
  match pythonUser? metadata with
  | none => []
  | some (name, key) =>
    [pythonIssue ctx "MissingPythonEclass"
      ("missing " ++ recommendedEclass name ++ " eclass usage for " ++ name ++ " on " ++ key)
      (metadata.lineOf? name)]

def missingRequiredUse (ctx : CheckContext) (metadata : Ebuild.Metadata) : Issue :=
  pythonIssue ctx "PythonMissingRequiredUse"
    "missing REQUIRED_USE=\"$\x7bPYTHON_REQUIRED_USE\x7d\""
    ((metadata.lineOf? "REQUIRED_USE").or (metadata.lineOf? "IUSE"))

def flagsAfter (metadata : Ebuild.Metadata) (beginning : String) : List String :=
  Ascending.ofList (metadata.iuse.filterMap fun flag => stripStart? beginning flag.name)

def leaf? : Expr String → Option String
  | .leaf flag => some flag
  | .group .. => none

def groupFlags? (members : List (Expr String)) : Option (List String) :=
  (members.mapM leaf?).map Ascending.ofList

/-- Whether an expression is such a group of just these flags. A single flag may stand alone. -/
def isGroupOf (kind : Group) (flags : List String) : Expr String → Bool
  | .leaf flag => flags == [flag]
  | .group k members => k == kind && groupFlags? members == some flags

def requireGroup (ctx : CheckContext) (metadata : Ebuild.Metadata) (required : List (Expr String))
    (kind : Group) (beginning : String) (endings : List String) : List Issue :=
  if required.any (isGroupOf kind (endings.map (beginning ++ ·))) then []
  else [missingRequiredUse ctx metadata]

def singleMismatch (ctx : CheckContext) (metadata : Ebuild.Metadata)
    (targets singles : List String) : Issue :=
  pythonIssue ctx "PythonSingleUseMismatch"
    ("mismatched flags in IUSE: PYTHON_TARGETS=( " ++ joinWith " " targets ++
      " ) and PYTHON_SINGLE_TARGET=( " ++ joinWith " " singles ++ " )")
    (metadata.lineOf? "IUSE")

def eclassIssues (ctx : CheckContext) (metadata : Ebuild.Metadata) (eclass : String) : List Issue :=
  let required := (parseRequiredUse metadata.requiredUse).toOption.getD []
  let targets := flagsAfter metadata targetBeginning
  if eclass = "python-r1" then
    if targets.isEmpty then []
    else requireGroup ctx metadata required .anyOf targetBeginning targets
  else if eclass = "python-single-r1" then
    let singles := flagsAfter metadata singleBeginning
    if singles.isEmpty && targets.length ≤ 1 then []
    else if singles != targets then [singleMismatch ctx metadata targets singles]
    else requireGroup ctx metadata required .exactlyOne singleBeginning singles
  else []

def python : Check where
  name := "PythonCheck"
  category := "python"
  scope := .version
  knownKinds := ["MissingPythonEclass", "PythonMissingRequiredUse", "PythonSingleUseMismatch"]
  run ctx := do
    let metadata ← ctx.needMetadata
    match pythonEclasses.find? metadata.inherits with
    | none => return missingEclass ctx metadata
    | some eclass =>
      if occursIn "PYTHON_REQUIRED_USE" metadata.requiredUse then return []
      else return eclassIssues ctx metadata eclass

end EbuildAudit.Check
