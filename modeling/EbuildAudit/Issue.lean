import EbuildAudit.ScanUnit

namespace EbuildAudit

inductive Severity
  | info
  | warning
  | error
  deriving DecidableEq, Repr

def Severity.name : Severity → String
  | .info => "info"
  | .warning => "warning"
  | .error => "error"

structure Location where
  line : Nat
  column : Nat
  deriving DecidableEq, Repr

structure Issue where
  check : String
  kind : String
  scope : Scope
  unit : String
  severity : Severity
  message : String
  location : Option Location
  deriving DecidableEq, Repr

namespace Issue

def new (check kind : String) (unit : ScanUnit) (severity : Severity) (message : String) :
    Issue where
  check
  kind
  scope := unit.scope
  unit := unit.id.display
  severity
  message
  location := none

def placed (issue : Issue) (line column : Nat) : Issue :=
  { issue with location := some ⟨line, column⟩ }

end Issue

structure Summary where
  units : Nat
  errors : Nat
  warnings : Nat
  infos : Nat
  cancelled : Bool
  deriving DecidableEq, Repr

namespace Summary

def empty : Summary :=
  ⟨0, 0, 0, 0, false⟩

def record (s : Summary) (issue : Issue) : Summary :=
  match issue.severity with
  | .error => { s with errors := s.errors + 1 }
  | .warning => { s with warnings := s.warnings + 1 }
  | .info => { s with infos := s.infos + 1 }

end Summary

end EbuildAudit
