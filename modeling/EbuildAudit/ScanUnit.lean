import EbuildAudit.Text.Basic

namespace EbuildAudit

inductive Scope
  | commit
  | version
  | package
  | category
  | repository
  deriving DecidableEq, Repr

namespace Scope

def all : List Scope :=
  [.commit, .version, .package, .category, .repository]

def name : Scope → String
  | .commit => "commit"
  | .version => "version"
  | .package => "package"
  | .category => "category"
  | .repository => "repository"

def level? : Scope → Option Nat
  | .commit => none
  | .version => some 0
  | .package => some 1
  | .category => some 2
  | .repository => some 3

def contains (outer inner : Scope) : Bool :=
  match outer.level?, inner.level? with
  | some a, some b => b ≤ a
  | _, _ => outer == inner

def child? : Scope → Option Scope
  | .package => some .version
  | .category => some .package
  | .repository => some .category
  | .version | .commit => none

def parse? (s : String) : Option Scope :=
  let wanted := (Text.trim s).toList.map Char.toLower
  all.find? fun scope => scope.name.toList == wanted

def unknownMessage (s : String) : String :=
  "unknown scope: " ++ Text.quoted s

end Scope

inductive UnitId
  | version (category package version : String)
  | package (category package : String)
  | category (name : String)
  | repository
  | commit (hash : String)
  deriving DecidableEq, Repr

namespace UnitId

def scope : UnitId → Scope
  | .version .. => .version
  | .package .. => .package
  | .category _ => .category
  | .repository => .repository
  | .commit _ => .commit

def packageKey? : UnitId → Option String
  | .version c p _ => some (c ++ "/" ++ p)
  | .package c p => some (c ++ "/" ++ p)
  | _ => none

def category? : UnitId → Option String
  | .version c _ _ => some c
  | .package c _ => some c
  | .category c => some c
  | _ => none

def parent? : UnitId → Option UnitId
  | .version c p _ => some (.package c p)
  | .package c _ => some (.category c)
  | .category _ => some .repository
  | .repository | .commit _ => none

def display : UnitId → String
  | .version c p v => c ++ "/" ++ p ++ "-" ++ v
  | .package c p => c ++ "/" ++ p
  | .category c => c
  | .repository => "repository"
  | .commit hash => "commit:" ++ hash

end UnitId

structure ScanUnit where
  id : UnitId
  path : String
  /-- How many units directly below this one come before it. -/
  children : Nat
  deriving DecidableEq, Repr

namespace ScanUnit

def scope (u : ScanUnit) : Scope :=
  u.id.scope

def parent? (u : ScanUnit) : Option UnitId :=
  u.id.parent?

end ScanUnit

end EbuildAudit
