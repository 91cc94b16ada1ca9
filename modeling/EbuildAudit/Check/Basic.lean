import EbuildAudit.Addon.Basic
import EbuildAudit.Issue
import EbuildAudit.Shell.Tree

namespace EbuildAudit

abbrev Grammar := String → Except Shell.ParseFailure Shell.Tree

structure CheckContext where
  unit : ScanUnit
  metadata : Option Ebuild.Metadata
  script : Option (Thunk (Except Shell.ParseFailure Shell.Tree))
  children : List Issue
  childCount : Nat

def CheckContext.new (grammar : Grammar) (unit : ScanUnit) (metadata : Option Ebuild.Metadata)
    (children : List Issue) (childCount : Nat) : CheckContext where
  unit
  metadata
  script := metadata.map fun m => Thunk.mk fun _ => grammar m.script
  children
  childCount

inductive CheckFault
  | missingAddon (addon : AddonId)
  | missingMetadata (unit : String)
  | unreadable (reason : String)
  | other (reason : String)
  | crashed (cause : Crash)
  deriving DecidableEq, Repr

def CheckFault.message : CheckFault → String
  | .missingAddon addon => "missing addon value: " ++ addon
  | .missingMetadata unit => "missing package metadata for " ++ unit
  | .unreadable reason => "I/O error: " ++ reason
  | .other reason => reason
  | .crashed cause => cause.message

abbrev Checking := ExceptT CheckFault Query

structure Check where
  name : String
  category : String
  scope : Scope
  requiredAddons : List AddonId := []
  knownKinds : List String
  needsChildren : Bool := false
  /-- Whether the check looks at the script and says nothing if it cannot be read. -/
  parsesScript : Bool := false
  /-- Whether the check says so if a script cannot be read. -/
  reportsParseFailures : Bool := false
  run : CheckContext → Checking (List Issue)

namespace CheckContext

def needMetadata (ctx : CheckContext) : Checking Ebuild.Metadata :=
  match ctx.metadata with
  | some metadata => return metadata
  | none => throw (.missingMetadata ctx.unit.id.display)

def needScript (ctx : CheckContext) : Checking (Except Shell.ParseFailure Shell.Tree) :=
  match ctx.script with
  | some script => return script.get
  | none => throw (.missingMetadata ctx.unit.id.display)

end CheckContext

def needAddon (read : AddonValue → Option α) (addon : AddonId) : Checking α := do
  match ← (Query.value read addon : Query _) with
  | .ok a => return a
  | .error _ => throw (.missingAddon addon)

def stableArch (keyword : String) : String :=
  (Text.stripStart? "~" keyword).getD keyword

end EbuildAudit
