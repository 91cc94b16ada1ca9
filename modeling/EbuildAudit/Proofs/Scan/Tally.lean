import EbuildAudit.Scan.Protocol

namespace EbuildAudit.Scan

def seen (unit : ScanUnit) : Issue :=
  .new "Sighting" "Seen" unit .info "seen"

def sighting : Check where
  name := "Sighting"
  category := "tally"
  scope := .version
  knownKinds := ["Seen"]
  run ctx := return [seen ctx.unit]

def repeating : Check where
  name := "Repeating"
  category := "tally"
  scope := .package
  knownKinds := ["Seen"]
  needsChildren := true
  run ctx := return ctx.children

def tallyPlan : Plan where
  checks := [sighting, repeating]
  addons := []

def blank : Ebuild.Metadata :=
  ⟨"8", [], [], [], "0", [], "", [], ""⟩

def bareStore : Store :=
  .new [] .empty "" ⟨false, none⟩ (fun _ _ => .ok blank) none

def unread : Grammar :=
  fun _ => .error ⟨"unread", 1, 1⟩

variable {grammar : Grammar} {unit : ScanUnit} {children : List Issue} {count : Nat} {store : Store}

theorem tally_collects : (rules tallyPlan grammar).collects unit = (unit.scope == .package) := by
  simp [rules, tallyPlan, Plan.checksFor, sighting, repeating]

theorem tally_report_version (hunit : unit.scope = .version) :
    (rules tallyPlan grammar).report unit children count bareStore =
      (⟨[], [seen unit]⟩, bareStore) := by
  obtain ⟨id, path, n⟩ := unit
  cases id with
  | version => rfl
  | _ => cases hunit

theorem tally_report_other (hunit : unit.scope ≠ .version) :
    (rules tallyPlan grammar).report unit children count bareStore =
      (⟨[], if unit.scope = .package then children else []⟩, bareStore) := by
  obtain ⟨id, path, n⟩ := unit
  cases id with
  | version => exact absurd rfl hunit
  | package =>
    change (UnitReport.mk [] (children ++ []), bareStore) = _
    rw [List.append_nil]
    rfl
  | _ => rfl

end EbuildAudit.Scan
