import EbuildAudit.Check.Shell
import EbuildAudit.Proofs.Ascending
import EbuildAudit.Proofs.Basic
import Mathlib.Data.List.Perm.Subperm

namespace EbuildAudit.Check

open Ascending (Sorted)

def counts (issue : Issue) : Bool :=
  summarized.contains issue.check

/-- What is said of a kind that no version lacks. -/
def inAllVersions (unit : ScanUnit) (versions : Nat) (kind : String) : Issue :=
  .new "ShellSummaryCheck" "ShellIssueInAllVersions" unit .info
    (kind ++ " reported in all " ++ toString versions ++ " versions")

theorem run_shellSummary (ctx : CheckContext) : shellSummary.run ctx =
    pure ((if ctx.childCount < 2 then [] else kindsEverywhere ctx.children ctx.childCount).map
      (inAllVersions ctx.unit ctx.childCount)) :=
  rfl

def unitsOf (entries : List (String × List String)) (kind : String) : List String :=
  (entries.lookup kind).getD []

variable {entries : List (String × List String)} {issue : Issue} {issues : List Issue}
  {kind unit : String} {n : Nat}

structure Grouped (entries : List (String × List String)) : Prop where
  kinds : Sorted entries
  units : ∀ kind, (unitsOf entries kind).Pairwise (· < ·)

def addIssue (entries : List (String × List String)) (issue : Issue) :
    List (String × List String) :=
  Ascending.modify [] (Ascending.insert issue.unit) issue.kind entries

theorem unitsByKind_eq (issues : List Issue) :
    unitsByKind issues = (issues.filter counts).foldl addIssue [] :=
  rfl

theorem unitsOf_addIssue (h : Sorted entries) (issue : Issue) (kind : String) :
    unitsOf (addIssue entries issue) kind =
      if kind = issue.kind then Ascending.insert issue.unit (unitsOf entries issue.kind)
      else unitsOf entries kind := by
  rw [unitsOf, addIssue, Ascending.lookup_modify _ _ _ h]
  split <;> rfl

theorem mem_unitsOf_addIssue (h : Sorted entries) :
    unit ∈ unitsOf (addIssue entries issue) kind ↔
      unit ∈ unitsOf entries kind ∨ (issue.kind = kind ∧ issue.unit = unit) := by
  rw [unitsOf_addIssue h]
  split
  case isTrue hkind =>
    subst hkind
    rw [Ascending.mem_insert]
    tauto
  case isFalse hkind =>
    have hne : issue.kind ≠ kind := Ne.symm hkind
    tauto

theorem Grouped.addIssue (h : Grouped entries) (issue : Issue) : Grouped (addIssue entries issue) where
  kinds := Ascending.modify_sorted h.kinds
  units kind := by
    rw [unitsOf_addIssue h.kinds]
    split
    · exact Ascending.insert_pairwise (h.units _)
    · exact h.units kind

theorem grouped_foldl (h : Grouped entries) (issues : List Issue) :
    Grouped (issues.foldl Check.addIssue entries) := by
  induction issues generalizing entries with
  | nil => exact h
  | cons issue issues ih => exact ih (h.addIssue issue)

theorem mem_unitsOf_foldl (h : Grouped entries) (issues : List Issue) :
    unit ∈ unitsOf (issues.foldl addIssue entries) kind ↔
      unit ∈ unitsOf entries kind ∨ ∃ issue ∈ issues, issue.kind = kind ∧ issue.unit = unit := by
  induction issues generalizing entries with
  | nil => simp
  | cons issue issues ih =>
    rw [List.foldl_cons, ih (h.addIssue issue), mem_unitsOf_addIssue h.kinds, or_assoc,
      List.exists_mem_cons_iff]

theorem grouped_nil : Grouped [] :=
  ⟨.nil, fun _ => List.Pairwise.nil⟩

theorem grouped_unitsByKind (issues : List Issue) : Grouped (unitsByKind issues) :=
  grouped_foldl grouped_nil _

theorem mem_unitsOf_unitsByKind : unit ∈ unitsOf (unitsByKind issues) kind ↔
    ∃ issue ∈ issues, counts issue ∧ issue.kind = kind ∧ issue.unit = unit := by
  rw [unitsByKind_eq, mem_unitsOf_foldl grouped_nil]
  simp [unitsOf, and_assoc]

theorem kindsEverywhere_pairwise (issues : List Issue) (n : Nat) :
    (kindsEverywhere issues n).Pairwise (· < ·) :=
  List.Pairwise.sublist (List.filter_sublist.map _) (grouped_unitsByKind issues).kinds

theorem mem_kindsEverywhere_iff_length (hn : 0 < n) :
    kind ∈ kindsEverywhere issues n ↔ (unitsOf (unitsByKind issues) kind).length = n := by
  have hnodup := (grouped_unitsByKind issues).kinds.nodup
  simp only [kindsEverywhere, List.mem_map, List.mem_filter, Prod.exists, beq_iff_eq]
  constructor
  · rintro ⟨_, units, ⟨hmem, hlength⟩, rfl⟩
    rw [unitsOf, lookup_of_mem hnodup hmem]
    exact hlength
  · intro hlength
    cases hlookup : (unitsByKind issues).lookup kind with
    | none =>
      rw [unitsOf, hlookup] at hlength
      exact absurd hlength.symm (Nat.ne_of_gt hn)
    | some units =>
      rw [unitsOf, hlookup] at hlength
      exact ⟨kind, units, ⟨mem_of_lookup hlookup, hlength⟩, rfl⟩

theorem length_eq_iff_subset {l names : List String} (hl : l.Nodup) (hnames : names.Nodup)
    (hsub : l ⊆ names) : l.length = names.length ↔ names ⊆ l := by
  constructor
  · intro hlength
    have hperm := (List.subperm_of_subset hl hsub).perm_of_length_le (Nat.le_of_eq hlength.symm)
    exact hperm.symm.subset
  · intro hback
    exact Nat.le_antisymm (hl.length_le_of_subset hsub) (hnames.length_le_of_subset hback)

theorem mem_kindsEverywhere {names : List String} (hnames : names.Nodup) (hne : names ≠ [])
    (hunits : ∀ issue ∈ issues, counts issue → issue.unit ∈ names) :
    kind ∈ kindsEverywhere issues names.length ↔
      ∀ name ∈ names, ∃ issue ∈ issues, counts issue ∧ issue.kind = kind ∧ issue.unit = name := by
  have hnodup : (unitsOf (unitsByKind issues) kind).Nodup :=
    ((grouped_unitsByKind issues).units kind).imp ne_of_lt
  have hsub : unitsOf (unitsByKind issues) kind ⊆ names := by
    intro unit hunit
    obtain ⟨issue, hissue, hcounts, -, rfl⟩ := mem_unitsOf_unitsByKind.1 hunit
    exact hunits issue hissue hcounts
  rw [mem_kindsEverywhere_iff_length (List.length_pos_iff.2 hne),
    length_eq_iff_subset hnodup hnames hsub]
  exact forall₂_congr fun name _ => mem_unitsOf_unitsByKind

end EbuildAudit.Check
