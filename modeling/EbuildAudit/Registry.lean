import EbuildAudit.Addon.Catalog
import EbuildAudit.Check.Basic
import EbuildAudit.Check.Catalog

namespace EbuildAudit

structure Selection where
  enabled : List String
  disabled : List String
  deriving DecidableEq, Repr

namespace Selection

def tokens (lists : List String) : List String :=
  ((lists.flatMap (Text.splitOn ',')).map Text.trim).filter (!·.isEmpty)

def ofLists (enabled disabled : List String) : Selection :=
  ⟨tokens enabled, tokens disabled⟩

end Selection

def Check.answersTo (c : Check) (token : String) : Bool :=
  c.name == token || c.category == token || c.knownKinds.contains token

def Selection.includes (s : Selection) (c : Check) : Bool :=
  (s.enabled.isEmpty || s.enabled.any c.answersTo) && !s.disabled.any c.answersTo

inductive PlanError
  | unknownCheck (token : String)
  | unknownAddon (check : String) (addon : AddonId)
  | unknownDependency (addon dependency : AddonId)
  | addonCycle (path : List AddonId)
  | duplicateCheck (name : String)
  | noActiveChecks
  deriving DecidableEq, Repr

def PlanError.message : PlanError → String
  | .unknownCheck token => "unknown check: " ++ Text.quoted token
  | .unknownAddon check addon =>
    "check " ++ Text.quoted check ++ " requires unknown addon " ++ Text.quoted addon
  | .unknownDependency addon dependency =>
    "addon " ++ Text.quoted addon ++ " depends on unknown addon " ++ Text.quoted dependency
  | .addonCycle path => "addon dependency cycle: " ++ Text.joinWith " -> " path
  | .duplicateCheck name => "duplicate check name: " ++ Text.quoted name
  | .noActiveChecks => "no active checks"

structure Plan where
  checks : List Check
  addons : List AddonId

namespace Plan

def checksFor (p : Plan) (scope : Scope) : List Check :=
  p.checks.filter (·.scope == scope)

def aggregates (p : Plan) : Bool :=
  p.checks.any (·.needsChildren)

end Plan

structure Registry where
  checks : List Check
  addons : List (AddonId × Addon)

namespace Registry

def knows (r : Registry) (addon : AddonId) : Bool :=
  r.addons.any (·.1 == addon)

def dependenciesOf (r : Registry) (addon : AddonId) : List AddonId :=
  ((r.addons.lookup addon).map (·.dependsOn)).getD []

def besides (r : Registry) (path : List AddonId) : List (AddonId × Addon) :=
  r.addons.filter (!path.contains ·.1)

theorem besides_concat (r : Registry) (path : List AddonId) (id : AddonId) :
    r.besides (path ++ [id]) = (r.besides path).filter (·.1 != id) := by
  rw [besides, besides, List.filter_filter]
  apply List.filter_congr
  intro entry _
  rw [Bool.eq_iff_iff]
  simp [and_comm]

theorem length_besides_lt {r : Registry} {path : List AddonId} {id : AddonId} {addon : Addon}
    (hid : r.addons.lookup id = some addon) (hpath : ¬path.contains id) :
    (r.besides (path ++ [id])).length < (r.besides path).length := by
  rw [besides_concat, List.length_filter_lt_length_iff_exists]
  obtain ⟨l₁, l₂, haddons, -⟩ := List.lookup_eq_some_iff.1 hid
  have hmem : (id, addon) ∈ r.besides path := by
    rw [besides, List.mem_filter, haddons]
    exact ⟨List.mem_append_right _ List.mem_cons_self, by simpa using hpath⟩
  exact ⟨(id, addon), hmem, by simp⟩

mutual

/--
Puts an addon at the end of the order, after the addons it depends on. The path leads to it from
where the walk started; an addon that is met on its own path closes a cycle.
-/
def visit (r : Registry) (path order : List AddonId) (id : AddonId) :
    Except PlanError (List AddonId) :=
  if order.contains id then .ok order
  else if _h : path.contains id then .error (.addonCycle (path.dropWhile (· != id) ++ [id]))
  else
    match _ : r.addons.lookup id with
    | none => .ok (order ++ [id])
    | some addon => do return (← r.visitAll (path ++ [id]) order addon.dependsOn) ++ [id]
termination_by ((r.besides path).length, 0)
decreasing_by exact .left _ _ (length_besides_lt ‹_› _h)

def visitAll (r : Registry) (path order : List AddonId) :
    List AddonId → Except PlanError (List AddonId)
  | [] => .ok order
  | id :: ids => do r.visitAll path (← r.visit path order id) ids
termination_by ids => ((r.besides path).length, ids.length + 1)

end

def addonOrder (r : Registry) (ids : List AddonId) : Except PlanError (List AddonId) :=
  r.visitAll [] [] ids

def badCheck? (r : Registry) (names : List String) : List Check → Option PlanError
  | [] => none
  | c :: checks =>
    if names.contains c.name then some (.duplicateCheck c.name)
    else
      match c.requiredAddons.find? (!r.knows ·) with
      | some addon => some (.unknownAddon c.name addon)
      | none => r.badCheck? (c.name :: names) checks

def badAddon? (r : Registry) : Option PlanError :=
  r.addons.findSome? fun (id, addon) =>
    (addon.dependsOn.find? (!r.knows ·)).map (.unknownDependency id)

def new (checks : List Check) (addons : List Addon) : Except PlanError Registry := do
  let r : Registry := ⟨checks, Addon.byId addons⟩
  match (r.badCheck? [] checks).or r.badAddon? with
  | some e => .error e
  | none =>
    let _ ← r.addonOrder (r.addons.map (·.1))
    return r

def builtin : Except PlanError Registry :=
  new Check.builtin Addon.builtin

def unknownToken? (r : Registry) (s : Selection) : Option String :=
  (s.enabled ++ s.disabled).find? fun token => !r.checks.any (·.answersTo token)

def plannedChecks (r : Registry) (s : Selection) : List Check :=
  let parses := r.checks.any fun c => s.includes c && c.parsesScript
  r.checks.filter fun c => s.includes c || (parses && c.reportsParseFailures)

def plan (r : Registry) (s : Selection) : Except PlanError Plan := do
  match r.unknownToken? s with
  | some token => .error (.unknownCheck token)
  | none =>
    if !r.checks.any s.includes then .error .noActiveChecks
    else
      let checks := r.plannedChecks s
      return { checks, addons := ← r.addonOrder (checks.flatMap (·.requiredAddons)) }

def addonsFor (r : Registry) (p : Plan) : List Addon :=
  p.addons.filterMap fun id => r.addons.lookup id

end Registry

end EbuildAudit
