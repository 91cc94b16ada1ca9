import EbuildAudit.Advisory.Index
import EbuildAudit.Ebuild.Metadata
import EbuildAudit.Package.Index
import EbuildAudit.Profile.Data

namespace EbuildAudit

abbrev AddonId := String

namespace AddonId

def packages : AddonId := "packages"

def profiles : AddonId := "profiles"

def useFlags : AddonId := "use-flags"

def advisories : AddonId := "glsa"

end AddonId

inductive Crash
  | text (message : String)
  | other
  deriving DecidableEq, Repr

def Crash.message : Crash → String
  | .text message => message
  | .other => "panic"

inductive AddonValue
  | packages (index : Package.Index)
  | profiles (data : Profile.Data)
  | useFlags (flags : Profile.UseFlags)
  | advisories (index : Advisory.Index)
  | number (n : Int)
  deriving DecidableEq, Repr

namespace AddonValue

def packages? : AddonValue → Option Package.Index
  | .packages index => some index
  | _ => none

def profiles? : AddonValue → Option Profile.Data
  | .profiles data => some data
  | _ => none

def useFlags? : AddonValue → Option Profile.UseFlags
  | .useFlags flags => some flags
  | _ => none

def advisories? : AddonValue → Option Advisory.Index
  | .advisories index => some index
  | _ => none

def number? : AddonValue → Option Int
  | .number n => some n
  | _ => none

end AddonValue

inductive Outcome
  | ready (value : AddonValue)
  | failed (reason : String)
  | disabled (reason : String)
  deriving DecidableEq, Repr

inductive AddonFault
  | failed (addon : AddonId) (reason : String)
  | disabled (addon : AddonId) (reason : String)
  deriving DecidableEq, Repr

def AddonFault.message : AddonFault → String
  | .failed addon reason => "addon " ++ addon ++ " failed: " ++ reason
  | .disabled addon reason => "addon " ++ addon ++ " disabled: " ++ reason

def Outcome.value (read : AddonValue → Option α) (addon : AddonId) :
    Outcome → Except AddonFault α
  | .ready value =>
    match read value with
    | some a => .ok a
    | none => .error (.failed addon "unexpected value type")
  | .failed reason => .error (.failed addon reason)
  | .disabled reason => .error (.disabled addon reason)

structure AddonSettings where
  advisoriesEnabled : Bool
  advisoryDir : Option String
  deriving DecidableEq, Repr

inductive LoadFault
  | error (cause : Ebuild.LoadError)
  | crash (cause : Crash)
  deriving DecidableEq, Repr

def LoadFault.message : LoadFault → String
  | .error cause => cause.message
  | .crash cause => cause.message

abbrev Loader := FileTree → String → Except LoadFault Ebuild.Metadata

def Loader.ebuilds : Loader := fun files path =>
  (Ebuild.load files path).mapError .error

inductive Query (α : Type)
  | done (value : α)
  | ask (addon : AddonId) (next : Outcome → Query α)

namespace Query

def bind : Query α → (α → Query β) → Query β
  | .done a, f => f a
  | .ask addon next, f => .ask addon fun outcome => (next outcome).bind f

instance : Monad Query where
  pure := .done
  bind := bind

def value (read : AddonValue → Option α) (addon : AddonId) : Query (Except AddonFault α) :=
  .ask addon fun outcome => .done (outcome.value read addon)

def answer [Monad m] (get : AddonId → m Outcome) : Query α → m α
  | .done a => pure a
  | .ask addon next => do (next (← get addon)).answer get

end Query

end EbuildAudit
