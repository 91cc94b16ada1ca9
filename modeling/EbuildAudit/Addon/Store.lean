import EbuildAudit.Addon.Basic
import EbuildAudit.Addon.Cache
import EbuildAudit.Repository.Identity

/-!
The addons of a scan and what is known of them. An addon is computed when it is first asked for,
after the addons it depends on, and its outcome stands until it is dropped.
-/

namespace EbuildAudit

structure Surroundings where
  files : FileTree
  root : String
  settings : AddonSettings
  load : Loader
  calls : Nat

inductive AddonStop
  | failed (reason : String)
  | disabled (reason : String)
  | crashed (cause : Crash)
  deriving DecidableEq, Repr

structure Addon where
  id : AddonId
  dependsOn : List AddonId
  /-- The version of the written form; without one the value is not kept between scans. -/
  persistVersion : Option Nat
  compute : Surroundings → Query (Except AddonStop AddonValue)
  encode : AddonValue → Option Json
  decode : Json → Option AddonValue

def AddonStop.ofFault : AddonFault → AddonStop
  | .failed _ reason => .failed reason
  | .disabled _ reason => .disabled reason

def Outcome.ofComputed : Except AddonStop AddonValue → Outcome
  | .ok value => .ready value
  | .error (.failed reason) => .failed reason
  | .error (.disabled reason) => .disabled reason
  | .error (.crashed cause) => .failed cause.message

inductive Slot
  | filling
  | full (outcome : Outcome)
  deriving DecidableEq, Repr

/-- Of addons with one name the last one counts, at the place of the name. -/
def Addon.byId (addons : List Addon) : List (AddonId × Addon) :=
  addons.foldl (fun done addon => Ascending.set addon.id addon done) []

structure Store where
  addons : List (AddonId × Addon)
  root : String
  settings : AddonSettings
  load : Loader
  cache : Option Cache
  files : FileTree
  identity : Option String
  slots : List (AddonId × Slot)
  calls : List (AddonId × Nat)

namespace Store

def new (addons : List Addon) (files : FileTree) (root : String) (settings : AddonSettings)
    (load : Loader) (cache : Option Cache) : Store where
  addons := Addon.byId addons
  root
  settings
  load
  cache
  files
  identity := none
  slots := []
  calls := []

def setSlot (s : Store) (addon : AddonId) (slot : Slot) : Store :=
  { s with slots := (addon, slot) :: s.slots.filter (·.1 != addon) }

def invalidate (s : Store) (addon : AddonId) : Store :=
  { s with slots := s.slots.filter (·.1 != addon) }

def callsOf (s : Store) (addon : AddonId) : Nat :=
  (s.calls.lookup addon).getD 0

def identify : StateM Store String := fun s =>
  let identity := s.identity.getD (Repository.identity s.files s.root)
  (identity, { s with identity := some identity })

def cacheKey? (addon : Addon) : StateM Store (Option (Cache × CacheKey)) := do
  match (← get).cache, addon.persistVersion with
  | some cache, some version =>
    return some (cache, { addon := addon.id, version, identity := ← identify })
  | _, _ => return none

def cached? (addon : Addon) (place : Option (Cache × CacheKey)) (s : Store) :
    Option AddonValue := do
  let (cache, key) ← place
  addon.decode (← cache.load? s.files key)

def keep (addon : Addon) (place : Option (Cache × CacheKey)) (value : AddonValue) :
    StateM Store PUnit :=
  modify fun s =>
    match place, addon.encode value with
    | some (cache, key), some j => { s with files := (cache.store s.files key j).1 }
    | _, _ => s

def blocked? (dependency : AddonId) : Outcome → Option Outcome
  | .ready _ => none
  | .failed reason => some (.failed ("dependency " ++ dependency ++ " failed: " ++ reason))
  | .disabled reason => some (.disabled ("dependency " ++ dependency ++ " disabled: " ++ reason))

def firstBlocked (get : AddonId → StateM Store Outcome) :
    List AddonId → StateM Store (Option Outcome)
  | [] => return none
  | dependency :: rest => do
    match blocked? dependency (← get dependency) with
    | some outcome => return some outcome
    | none => firstBlocked get rest

def compute (get : AddonId → StateM Store Outcome) (addon : Addon)
    (place : Option (Cache × CacheKey)) : StateM Store Outcome := do
  modify fun s => { s with calls := Ascending.modify 0 (· + 1) addon.id s.calls }
  let s ← MonadState.get
  let computed ← (addon.compute {
    files := s.files
    root := s.root
    settings := s.settings
    load := s.load
    calls := s.callsOf addon.id }).answer get
  if let .ok value := computed then keep addon place value
  return .ofComputed computed

def fill (get : AddonId → StateM Store Outcome) (id : AddonId) : StateM Store Outcome := do
  match (← MonadState.get).addons.lookup id with
  | none => return .failed ("unknown addon " ++ id)
  | some addon =>
    match ← firstBlocked get addon.dependsOn with
    | some outcome => return outcome
    | none =>
      let place ← cacheKey? addon
      match cached? addon place (← MonadState.get) with
      | some value => return .ready value
      | none => compute get addon place

def waiting (id : AddonId) : Outcome :=
  .failed ("addon " ++ id ++ " waits for itself")

/--
The outcome of an addon, computed if it is not known. Each question that is asked while another one
is answered spends one unit of fuel.
-/
def getWithin : Nat → AddonId → StateM Store Outcome
  | 0, id => return waiting id
  | fuel + 1, id => do
    match (← get).slots.lookup id with
    | some (.full outcome) => return outcome
    | some .filling => return waiting id
    | none =>
      modify (·.setSlot id .filling)
      let outcome ← fill (getWithin fuel) id
      modify (·.setSlot id (.full outcome))
      return outcome

def outcome (id : AddonId) : StateM Store Outcome := fun s =>
  getWithin (s.addons.length + 2) id s

def value (read : AddonValue → Option α) (id : AddonId) : StateM Store (Except AddonFault α) := do
  return (← outcome id).value read id

def run (q : Query α) : StateM Store α :=
  q.answer outcome

end Store

end EbuildAudit
