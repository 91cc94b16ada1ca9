import EbuildAudit.Ebuild.Assignment
import EbuildAudit.FileTree
import EbuildAudit.Text.Basic

namespace EbuildAudit.Ebuild

open Text

structure IuseFlag where
  name : String
  default : Option Bool
  deriving DecidableEq, Repr

def IuseFlag.ofWord (word : String) : IuseFlag :=
  match word.toList with
  | '+' :: name => ⟨String.ofList name, some true⟩
  | '-' :: name => ⟨String.ofList name, some false⟩
  | _ => ⟨word, none⟩

def dependencyVariables : List String :=
  ["BDEPEND", "DEPEND", "IDEPEND", "PDEPEND", "RDEPEND"]

structure Metadata where
  eapi : String
  inherited : List String
  iuse : List IuseFlag
  keywords : List String
  slot : String
  depends : List (String × String)
  requiredUse : String
  variableLines : List (String × Nat)
  script : String
  deriving DecidableEq, Repr

namespace Metadata

def hasFlag (m : Metadata) (flag : String) : Bool :=
  m.iuse.any (·.name == flag)

def inherits (m : Metadata) (eclass : String) : Bool :=
  m.inherited.contains eclass

def lineOf? (m : Metadata) (name : String) : Option Nat :=
  m.variableLines.lookup name

def eapiNumber? (m : Metadata) : Option Nat :=
  bounded? 0x100000000 m.eapi.toList

end Metadata

abbrev Variables := List (String × List Char)

def Variables.set (vars : Variables) (name : String) (value : List Char) : Variables :=
  (name, value) :: vars.filter (·.1 != name)

def Variables.apply (vars : Variables) : Statement → Variables
  | .inheriting _ => vars
  | .assign name false value _ => vars.set name value
  | .assign name true value _ => vars.set name ((vars.lookup name).getD [] ++ ' ' :: value)

def Variables.ofStatements (statements : List Statement) : Variables :=
  statements.foldl Variables.apply []

def firstLines (statements : List Statement) : List (String × Nat) :=
  statements.foldl (fun lines statement =>
    match statement with
    | .inheriting _ => lines
    | .assign name _ _ line =>
      if (lines.lookup name).isSome then lines else lines ++ [(name, line)]) []

def eclasses (statements : List Statement) : List String :=
  statements.flatMap fun statement =>
    match statement with
    | .inheriting names => names
    | .assign .. => []

def eapiOf (value : List Char) : String :=
  let stripped := trimWhile (fun c => c == '"' || c == '\'') value
  if stripped.isEmpty then "0" else String.ofList stripped

def parse (script : String) : Except String Metadata := do
  let statements ← Ebuild.statements script
  let vars := Variables.ofStatements statements
  let value (name : String) : String := String.ofList ((vars.lookup name).getD [])
  return {
    eapi := eapiOf ((vars.lookup "EAPI").getD [])
    inherited := eclasses statements
    iuse := (words (value "IUSE")).map IuseFlag.ofWord
    keywords := words (value "KEYWORDS")
    slot := value "SLOT"
    depends := dependencyVariables.filterMap fun name =>
      (vars.lookup name).map fun text => (name, String.ofList text)
    requiredUse := value "REQUIRED_USE"
    variableLines := firstLines statements
    script }

inductive LoadError
  | unreadable (path : String) (cause : FileError)
  | unterminated (path name : String)
  deriving DecidableEq, Repr

def LoadError.message : LoadError → String
  | .unreadable path cause => "cannot read " ++ path ++ ": " ++ cause.message
  | .unterminated path name => path ++ ": unterminated value for " ++ name

def parseAt (path script : String) : Except LoadError Metadata :=
  match parse script with
  | .ok metadata => .ok metadata
  | .error name => .error (.unterminated path name)

def load (files : FileTree) (path : String) : Except LoadError Metadata :=
  match files.readText path with
  | .ok script => parseAt path script
  | .error cause => .error (.unreadable path cause)

end EbuildAudit.Ebuild
