import EbuildAudit.Check.Python
import EbuildAudit.Proofs.Ascending
import EbuildAudit.Proofs.Dependency.Grammar
import EbuildAudit.Proofs.Text.Pieces
import Mathlib.Data.Set.Image

namespace EbuildAudit.Ebuild.Metadata

def endings (m : Metadata) (beginning : String) : Set String :=
  {ending | ∃ flag ∈ m.iuse, flag.name = beginning ++ ending}

def flagsWith (m : Metadata) (beginning : String) : Set String :=
  (beginning ++ ·) '' m.endings beginning

end EbuildAudit.Ebuild.Metadata

namespace EbuildAudit.Check

open Dependency

/-- There is a group of just these flags at the top level, and nothing else is in it. -/
def GroupedBy (required : List (Expr String)) (kind : Group) (flags : Set String) : Prop :=
  ∃ members : List String,
    .group kind (members.map .leaf) ∈ required ∧ {flag | flag ∈ members} = flags

def Alone (required : List (Expr String)) (flags : Set String) : Prop :=
  ∃ flag, .leaf flag ∈ required ∧ flags = {flag}

def Reported (kind : String) (issues : List Issue) : Prop :=
  ∃ issue ∈ issues, issue.kind = kind

variable {metadata : Ebuild.Metadata} {ctx : CheckContext} {required members : List (Expr String)}
  {kind : Group} {flags : List String} {beginning beginning' ending : String} {e : Expr String}

theorem mem_flagsAfter :
    ending ∈ flagsAfter metadata beginning ↔ ending ∈ metadata.endings beginning := by
  simp only [flagsAfter, Ascending.mem_ofList, List.mem_filterMap, Text.stripStart?_eq_some_iff]
  rfl

theorem flagsAfter_pairwise (metadata : Ebuild.Metadata) (beginning : String) :
    (flagsAfter metadata beginning).Pairwise (· < ·) :=
  Ascending.ofList_pairwise _

theorem flagsAfter_eq_iff : flagsAfter metadata beginning = flagsAfter metadata beginning' ↔
    metadata.endings beginning = metadata.endings beginning' := by
  constructor
  · intro h
    ext ending
    rw [← mem_flagsAfter, h, mem_flagsAfter]
  · intro h
    refine Ascending.eq_of_mem_iff (flagsAfter_pairwise _ _) (flagsAfter_pairwise _ _) fun k => ?_
    rw [mem_flagsAfter, h, mem_flagsAfter]

theorem flagsAfter_eq_nil_iff :
    flagsAfter metadata beginning = [] ↔ metadata.endings beginning = ∅ := by
  rw [List.eq_nil_iff_forall_not_mem, Set.eq_empty_iff_forall_notMem]
  exact forall_congr' fun ending => not_congr mem_flagsAfter

theorem length_flagsAfter_le_one_iff :
    (flagsAfter metadata beginning).length ≤ 1 ↔ (metadata.endings beginning).Subsingleton := by
  have hmem (ending : String) :
      ending ∈ metadata.endings beginning ↔ ending ∈ flagsAfter metadata beginning :=
    mem_flagsAfter.symm
  have hsorted := flagsAfter_pairwise metadata beginning
  simp only [Set.Subsingleton, hmem]
  match flagsAfter metadata beginning, hsorted with
  | [], _ => simp
  | [ending], _ => simp
  | ending :: other :: endings, hsorted =>
    have hlt : ending < other := List.rel_of_pairwise_cons hsorted List.mem_cons_self
    simp [hlt.ne]

theorem append_lt_append {s t : String} (beginning : String) (h : s < t) :
    beginning ++ s < beginning ++ t := by
  rw [String.lt_iff_toList_lt] at h ⊢
  rw [String.toList_append, String.toList_append]
  exact List.append_left_lt h

theorem namedFlags_pairwise (metadata : Ebuild.Metadata) (beginning : String) :
    ((flagsAfter metadata beginning).map (beginning ++ ·)).Pairwise (· < ·) := by
  rw [List.pairwise_map]
  exact (flagsAfter_pairwise metadata beginning).imp fun h => append_lt_append beginning h

theorem setOf_namedFlags (metadata : Ebuild.Metadata) (beginning : String) :
    {flag | flag ∈ (flagsAfter metadata beginning).map (beginning ++ ·)} =
      metadata.flagsWith beginning := by
  ext flag
  simp only [Set.mem_ofPred_eq, List.mem_map, mem_flagsAfter]
  rfl

theorem mapM_leaf?_eq_some_iff :
    members.mapM leaf? = some flags ↔ members = flags.map .leaf := by
  rw [Text.mapM_eq_some_iff]
  constructor
  · intro h
    induction h with
    | nil => rfl
    | @cons e flag _ _ hleaf _ ih =>
      cases e with
      | leaf value =>
        cases hleaf
        rw [ih, List.map_cons]
      | group kind members => cases hleaf
  · rintro rfl
    rw [List.forall₂_map_left_iff, List.forall₂_same]
    exact fun _ _ => rfl

theorem groupFlags?_eq_some_iff (hflags : flags.Pairwise (· < ·)) :
    groupFlags? members = some flags ↔
      ∃ named : List String, members = named.map .leaf ∧ {flag | flag ∈ named} = {f | f ∈ flags} := by
  simp only [groupFlags?, Option.map_eq_some_iff, mapM_leaf?_eq_some_iff]
  refine exists_congr fun named => and_congr_right fun _ => ?_
  constructor
  · rintro rfl
    ext flag
    exact Ascending.mem_ofList.symm
  · intro h
    refine Ascending.eq_of_mem_iff (Ascending.ofList_pairwise named) hflags fun flag => ?_
    rw [Ascending.mem_ofList]
    exact Set.ext_iff.1 h flag

theorem isGroupOf_leaf_iff (hflags : flags.Pairwise (· < ·)) {flag : String} :
    isGroupOf kind flags (.leaf flag) = true ↔ {f | f ∈ flags} = {flag} := by
  rw [isGroupOf, beq_iff_eq]
  constructor
  · rintro rfl
    ext other
    exact List.mem_singleton
  · intro h
    refine Ascending.eq_of_mem_iff hflags (List.pairwise_singleton _ _) fun other => ?_
    rw [List.mem_singleton]
    exact Set.ext_iff.1 h other

theorem isGroupOf_group_iff (hflags : flags.Pairwise (· < ·)) {kind' : Group} :
    isGroupOf kind flags (.group kind' members) = true ↔ kind' = kind ∧
      ∃ named : List String, members = named.map .leaf ∧ {flag | flag ∈ named} = {f | f ∈ flags} := by
  rw [isGroupOf, Bool.and_eq_true, beq_iff_eq, beq_iff_eq, groupFlags?_eq_some_iff hflags]

theorem any_isGroupOf_iff (hflags : flags.Pairwise (· < ·)) :
    required.any (isGroupOf kind flags) = true ↔
      GroupedBy required kind {f | f ∈ flags} ∨ Alone required {f | f ∈ flags} := by
  rw [List.any_eq_true]
  constructor
  · rintro ⟨e, he, hgroup⟩
    cases e with
    | leaf flag => exact .inr ⟨flag, he, (isGroupOf_leaf_iff hflags).1 hgroup⟩
    | group kind' members =>
      obtain ⟨rfl, named, rfl, hnamed⟩ := (isGroupOf_group_iff hflags).1 hgroup
      exact .inl ⟨named, he, hnamed⟩
  · rintro (⟨named, hmem, hnamed⟩ | ⟨flag, hmem, hflag⟩)
    · exact ⟨_, hmem, (isGroupOf_group_iff hflags).2 ⟨rfl, named, rfl, hnamed⟩⟩
    · exact ⟨_, hmem, (isGroupOf_leaf_iff hflags).2 hflag⟩

theorem requireGroup_eq_nil_iff :
    requireGroup ctx metadata required kind beginning (flagsAfter metadata beginning) = [] ↔
      GroupedBy required kind (metadata.flagsWith beginning) ∨
        Alone required (metadata.flagsWith beginning) := by
  rw [← setOf_namedFlags, ← any_isGroupOf_iff (namedFlags_pairwise metadata beginning), requireGroup,
    ite_eq_left_iff]
  simp

theorem requireGroup_eq (ctx : CheckContext) (metadata : Ebuild.Metadata)
    (required : List (Expr String)) (kind : Group) (beginning : String) (endings : List String) :
    requireGroup ctx metadata required kind beginning endings = [] ∨
      requireGroup ctx metadata required kind beginning endings =
        [missingRequiredUse ctx metadata] := by
  rw [requireGroup]
  exact ite_eq_or_eq _ _ _

theorem requireGroup_of_not (h : ¬(GroupedBy required kind (metadata.flagsWith beginning) ∨
      Alone required (metadata.flagsWith beginning))) :
    requireGroup ctx metadata required kind beginning (flagsAfter metadata beginning) =
      [missingRequiredUse ctx metadata] :=
  (requireGroup_eq ctx metadata required kind beginning _).resolve_left
    (mt requireGroup_eq_nil_iff.1 h)

theorem Alone.subsingleton (h : Alone required (metadata.flagsWith beginning)) :
    (metadata.endings beginning).Subsingleton := by
  obtain ⟨flag, -, hflags⟩ := h
  refine Set.subsingleton_of_image (fun _ _ heq => (String.append_right_inj beginning).1 heq) _ ?_
  change (metadata.flagsWith beginning).Subsingleton
  rw [hflags]
  exact Set.subsingleton_singleton

inductive JointAnswer (ctx : CheckContext) (metadata : Ebuild.Metadata)
    (required : List (Expr String)) : List Issue → Prop
  | untargeted : metadata.endings targetBeginning = ∅ → JointAnswer ctx metadata required []
  | satisfied : GroupedBy required .anyOf (metadata.flagsWith targetBeginning) ∨
      Alone required (metadata.flagsWith targetBeginning) → JointAnswer ctx metadata required []
  | missing : (metadata.endings targetBeginning).Nonempty →
      ¬(GroupedBy required .anyOf (metadata.flagsWith targetBeginning) ∨
        Alone required (metadata.flagsWith targetBeginning)) →
      JointAnswer ctx metadata required [missingRequiredUse ctx metadata]

def Exempt (metadata : Ebuild.Metadata) : Prop :=
  metadata.endings singleBeginning = ∅ ∧ (metadata.endings targetBeginning).Subsingleton

theorem exempt_iff : ((flagsAfter metadata singleBeginning).isEmpty &&
    decide ((flagsAfter metadata targetBeginning).length ≤ 1)) = true ↔ Exempt metadata := by
  rw [Bool.and_eq_true, List.isEmpty_iff, decide_eq_true_eq, flagsAfter_eq_nil_iff,
    length_flagsAfter_le_one_iff, Exempt]

inductive SingleAnswer (ctx : CheckContext) (metadata : Ebuild.Metadata)
    (required : List (Expr String)) : List Issue → Prop
  | exempt : Exempt metadata → SingleAnswer ctx metadata required []
  | mismatched : metadata.endings singleBeginning ≠ metadata.endings targetBeginning →
      ¬Exempt metadata → SingleAnswer ctx metadata required
        [singleMismatch ctx metadata (flagsAfter metadata targetBeginning)
          (flagsAfter metadata singleBeginning)]
  | satisfied : metadata.endings singleBeginning = metadata.endings targetBeginning →
      GroupedBy required .exactlyOne (metadata.flagsWith singleBeginning) ∨
        Alone required (metadata.flagsWith singleBeginning) → SingleAnswer ctx metadata required []
  | missing : metadata.endings singleBeginning = metadata.endings targetBeginning →
      (metadata.endings singleBeginning).Nonempty →
      ¬(GroupedBy required .exactlyOne (metadata.flagsWith singleBeginning) ∨
        Alone required (metadata.flagsWith singleBeginning)) →
      SingleAnswer ctx metadata required [missingRequiredUse ctx metadata]

section

variable (ctx) (hrequired : parseRequiredUse metadata.requiredUse = .ok required)
include hrequired

theorem jointAnswer : JointAnswer ctx metadata required (eclassIssues ctx metadata "python-r1") := by
  simp only [eclassIssues, hrequired, if_true, List.isEmpty_iff, flagsAfter_eq_nil_iff]
  change JointAnswer ctx metadata required (if metadata.endings targetBeginning = ∅ then []
    else requireGroup ctx metadata required .anyOf targetBeginning _)
  split
  case isTrue hnone => exact .untargeted hnone
  case isFalse hsome =>
    by_cases hgroup : GroupedBy required .anyOf (metadata.flagsWith targetBeginning) ∨
        Alone required (metadata.flagsWith targetBeginning)
    · rw [requireGroup_eq_nil_iff.2 hgroup]
      exact .satisfied hgroup
    · rw [requireGroup_of_not hgroup]
      exact .missing (Set.nonempty_iff_ne_empty.2 hsome) hgroup

theorem singleAnswer :
    SingleAnswer ctx metadata required (eclassIssues ctx metadata "python-single-r1") := by
  have heclass : "python-single-r1" ≠ "python-r1" := by decide
  simp only [eclassIssues, hrequired, if_neg heclass, if_true]
  split
  case isTrue hexempt => exact .exempt (exempt_iff.1 hexempt)
  case isFalse hexempt =>
    rw [exempt_iff] at hexempt
    split
    case isTrue hne => exact .mismatched (mt flagsAfter_eq_iff.2 (bne_iff_ne.1 hne)) hexempt
    case isFalse heq =>
      have hsame := flagsAfter_eq_iff.1 (not_not.1 (mt bne_iff_ne.2 heq))
      by_cases hgroup : GroupedBy required .exactlyOne (metadata.flagsWith singleBeginning) ∨
          Alone required (metadata.flagsWith singleBeginning)
      · rw [Except.toOption, Option.getD_some, requireGroup_eq_nil_iff.2 hgroup]
        exact .satisfied hsame hgroup
      · rw [Except.toOption, Option.getD_some, requireGroup_of_not hgroup]
        refine .missing hsame (Set.nonempty_iff_ne_empty.2 fun hnone => hexempt ⟨hnone, ?_⟩) hgroup
        rw [← hsame, hnone]
        exact Set.subsingleton_empty

end

theorem find_python (h : metadata.inherits "python-r1" = true) :
    pythonEclasses.find? metadata.inherits = some "python-r1" := by
  rw [pythonEclasses, List.find?_cons_of_pos h]

theorem find_single (h : metadata.inherits "python-r1" = false)
    (hsingle : metadata.inherits "python-single-r1" = true) :
    pythonEclasses.find? metadata.inherits = some "python-single-r1" := by
  rw [pythonEclasses, List.find?_cons_of_neg (by simp [h]), List.find?_cons_of_pos hsingle]

theorem run_python {eclass : String} (hmetadata : ctx.metadata = some metadata)
    (hown : ¬"PYTHON_REQUIRED_USE".toList <:+: metadata.requiredUse.toList)
    (heclass : pythonEclasses.find? metadata.inherits = some eclass) :
    python.run ctx = pure (eclassIssues ctx metadata eclass) := by
  have hmentioned : Text.occursIn "PYTHON_REQUIRED_USE" metadata.requiredUse = false := by
    rw [Text.occursIn, (Text.cutAt?_eq_none_iff (by decide)).2 hown]
    rfl
  have hneed : ctx.needMetadata = pure metadata := by rw [CheckContext.needMetadata, hmetadata]
  have hbind (f : Ebuild.Metadata → Checking (List Issue)) : pure metadata >>= f = f metadata := rfl
  simp only [python, hneed, hbind, heclass, hmentioned]
  rfl

theorem not_reported_nil (kind : String) : ¬Reported kind [] :=
  fun ⟨_, hmem, _⟩ => List.not_mem_nil hmem

theorem reported_singleton {kind : String} {issue : Issue} :
    Reported kind [issue] ↔ issue.kind = kind := by
  simp [Reported]

variable {issues : List Issue}

namespace JointAnswer

theorem length_le (h : JointAnswer ctx metadata required issues) : issues.length ≤ 1 := by
  cases h <;> simp

theorem not_mismatched (h : JointAnswer ctx metadata required issues) :
    ¬Reported "PythonSingleUseMismatch" issues := by
  cases h with
  | untargeted | satisfied => exact not_reported_nil _
  | missing =>
    rw [reported_singleton]
    exact (by decide : "PythonMissingRequiredUse" ≠ "PythonSingleUseMismatch")

theorem missing_iff (h : JointAnswer ctx metadata required issues) :
    Reported "PythonMissingRequiredUse" issues ↔
      (metadata.endings targetBeginning).Nonempty ∧
        ¬GroupedBy required .anyOf (metadata.flagsWith targetBeginning) ∧
        ¬Alone required (metadata.flagsWith targetBeginning) := by
  rw [← not_or]
  cases h with
  | untargeted hnone => simp [not_reported_nil, hnone]
  | satisfied hgroup => simp [not_reported_nil, hgroup]
  | missing hsome hgroup => exact iff_of_true (reported_singleton.2 rfl) ⟨hsome, hgroup⟩

end JointAnswer

/-- Several targets, and no group of their flags of which exactly one is asked for. -/
def Unchosen (metadata : Ebuild.Metadata) (required : List (Expr String)) : Prop :=
  metadata.endings singleBeginning = metadata.endings targetBeginning ∧
    (metadata.endings singleBeginning).Nontrivial ∧
    ¬GroupedBy required .exactlyOne (metadata.flagsWith singleBeginning)

/-- One target, with flags of both kinds, that the constraint does not ask for. -/
def LoneTarget (metadata : Ebuild.Metadata) (required : List (Expr String)) : Prop :=
  metadata.endings singleBeginning = metadata.endings targetBeginning ∧
    (∃ ending, metadata.endings singleBeginning = {ending}) ∧
    ¬GroupedBy required .exactlyOne (metadata.flagsWith singleBeginning) ∧
    ¬Alone required (metadata.flagsWith singleBeginning)

theorem Unchosen.not_loneTarget (h : Unchosen metadata required) :
    ¬LoneTarget metadata required := by
  rintro ⟨-, ⟨ending, hending⟩, -⟩
  have hseveral := h.2.1
  rw [hending] at hseveral
  exact Set.not_nontrivial_singleton hseveral

namespace SingleAnswer

theorem length_le (h : SingleAnswer ctx metadata required issues) : issues.length ≤ 1 := by
  cases h <;> simp

theorem mismatched_iff (h : SingleAnswer ctx metadata required issues) :
    Reported "PythonSingleUseMismatch" issues ↔
      metadata.endings singleBeginning ≠ metadata.endings targetBeginning ∧ ¬Exempt metadata := by
  cases h with
  | exempt hexempt => simp [not_reported_nil, hexempt]
  | mismatched hne hexempt => exact iff_of_true (reported_singleton.2 rfl) ⟨hne, hexempt⟩
  | satisfied hsame => simp [not_reported_nil, hsame]
  | missing hsame =>
    refine iff_of_false ?_ fun h => h.1 hsame
    rw [reported_singleton]
    exact (by decide : "PythonMissingRequiredUse" ≠ "PythonSingleUseMismatch")

theorem missing_iff (h : SingleAnswer ctx metadata required issues) :
    Reported "PythonMissingRequiredUse" issues ↔
      Unchosen metadata required ∨ LoneTarget metadata required := by
  cases h with
  | exempt hexempt =>
    simp [not_reported_nil, Unchosen, LoneTarget, hexempt.1]
  | mismatched hne =>
    refine iff_of_false ?_ fun h => hne (h.elim And.left And.left)
    rw [reported_singleton]
    exact (by decide : "PythonSingleUseMismatch" ≠ "PythonMissingRequiredUse")
  | satisfied _ hgroup =>
    refine iff_of_false (not_reported_nil _) ?_
    rintro (⟨-, hseveral, hnone⟩ | ⟨-, -, hnone, halone⟩)
    · exact Set.not_subsingleton_iff.2 hseveral (hgroup.resolve_left hnone).subsingleton
    · exact hgroup.elim hnone halone
  | missing hsame hsome hgroup =>
    refine iff_of_true (reported_singleton.2 rfl) ?_
    obtain ⟨hnone, halone⟩ := not_or.1 hgroup
    rcases hsome.exists_eq_singleton_or_nontrivial with hone | hseveral
    · exact .inr ⟨hsame, hone, hnone, halone⟩
    · exact .inl ⟨hsame, hseveral, hnone⟩

end SingleAnswer

/--
Flags for several targets are reported if there are some and the constraint asks neither for any of
them nor, where there is one, for that one. Flags for one target at a time are reported as different
from those for several, unless a single target has none. They are reported as not asked for exactly
where there are several and no group of them; but a lone target counts as well.
-/
theorem pythonFlags_exact_iff (answers : AddonId → Outcome) (hmetadata : ctx.metadata = some metadata)
    (heclass : metadata.inherits "python-r1" = true ∨ metadata.inherits "python-single-r1" = true)
    (hown : ¬"PYTHON_REQUIRED_USE".toList <:+: metadata.requiredUse.toList)
    (hrequired : parseRequiredUse metadata.requiredUse = .ok required) :
    ∃ issues, (python.run ctx).run.answer (m := Id) answers = .ok issues ∧ issues.length ≤ 1 ∧
      (metadata.inherits "python-r1" = true →
        (Reported "PythonMissingRequiredUse" issues ↔
          (metadata.endings targetBeginning).Nonempty ∧
            ¬GroupedBy required .anyOf (metadata.flagsWith targetBeginning) ∧
            ¬Alone required (metadata.flagsWith targetBeginning)) ∧
        ¬Reported "PythonSingleUseMismatch" issues) ∧
      (metadata.inherits "python-r1" = false →
        (Reported "PythonSingleUseMismatch" issues ↔
          metadata.endings singleBeginning ≠ metadata.endings targetBeginning ∧
            ¬(metadata.endings singleBeginning = ∅ ∧
              (metadata.endings targetBeginning).Subsingleton)) ∧
        (Reported "PythonMissingRequiredUse" issues ↔
          Unchosen metadata required ∨ LoneTarget metadata required) ∧
        ((Reported "PythonMissingRequiredUse" issues ↔ Unchosen metadata required) ↔
          ¬LoneTarget metadata required)) := by
  cases hjoint : metadata.inherits "python-r1" with
  | true =>
    have hanswer := jointAnswer ctx hrequired
    rw [run_python hmetadata hown (find_python hjoint)]
    exact ⟨_, rfl, hanswer.length_le, fun _ => ⟨hanswer.missing_iff, hanswer.not_mismatched⟩, nofun⟩
  | false =>
    have hsingle := heclass.resolve_left (by simp [hjoint])
    have hanswer := singleAnswer ctx hrequired
    rw [run_python hmetadata hown (find_single hjoint hsingle)]
    refine ⟨_, rfl, hanswer.length_le, nofun, fun _ =>
      ⟨hanswer.mismatched_iff, hanswer.missing_iff, ?_⟩⟩
    rw [hanswer.missing_iff, or_iff_left_iff_imp]
    exact ⟨fun h hlone => (h hlone).not_loneTarget hlone, fun h hlone => absurd hlone h⟩

namespace Sample

def pythonUser (flags : List String) (requiredUse : String) : Ebuild.Metadata where
  eapi := "8"
  inherited := ["python-single-r1"]
  iuse := flags.map .ofWord
  keywords := []
  slot := "0"
  depends := []
  requiredUse
  variableLines := [("IUSE", 3)]
  script := ""

def pythonContext (metadata : Ebuild.Metadata) : CheckContext where
  unit := ⟨.version "a" "p" "1", "a/p/p-1.ebuild", 0⟩
  metadata := some metadata
  script := none
  children := []
  childCount := 0

def pythonFound (metadata : Ebuild.Metadata) : Except CheckFault (List Issue) :=
  (python.run (pythonContext metadata)).run.answer (m := Id) fun _ => .failed ""

def twoTargets : Ebuild.Metadata :=
  pythonUser ["python_targets_b", "python_targets_a", "+python_single_target_a",
    "python_single_target_b"] "^^ ( python_single_target_b )"

def loneTarget : Ebuild.Metadata :=
  pythonUser ["python_targets_a", "python_single_target_a"] ""

end Sample

open Sample

theorem pythonFlags_exact_iff_twoTargets :
    twoTargets.inherits "python-single-r1" = true ∧
      ¬"PYTHON_REQUIRED_USE".toList <:+: twoTargets.requiredUse.toList ∧
      parseRequiredUse twoTargets.requiredUse =
        .ok [.group .exactlyOne [.leaf "python_single_target_b"]] ∧
      ∃ issues, pythonFound twoTargets = .ok issues ∧ issues.length ≤ 1 ∧
        Reported "PythonMissingRequiredUse" issues ∧
        ¬Reported "PythonSingleUseMismatch" issues := by
  have hown : ¬"PYTHON_REQUIRED_USE".toList <:+: twoTargets.requiredUse.toList := by
    decide +kernel
  have hrequired : parseRequiredUse twoTargets.requiredUse =
      .ok [.group .exactlyOne [.leaf "python_single_target_b"]] := by
    have hwords : Text.words twoTargets.requiredUse =
        Group.exactlyOne.introduction ++ "(" :: (["python_single_target_b"] ++ [")"]) := by
      decide +kernel
    refine parseExpr_eq_ok_iff.2 ?_
    rw [hwords]
    have hleaf : Reads flagLeaf ["python_single_target_b"] [.leaf "python_single_target_b"] :=
      .leaf (Word.isLeaf_of (by decide +kernel)) rfl .nil
    exact .group trivial hleaf .nil
  have hmetadata : (pythonContext twoTargets).metadata = some twoTargets := rfl
  obtain ⟨issues, hrun, hlength, -, hsingle⟩ :=
    pythonFlags_exact_iff (fun _ => .failed "") hmetadata (.inr rfl) hown hrequired
  obtain ⟨hmismatch, hmissing, -⟩ := hsingle rfl
  have hsame : twoTargets.endings singleBeginning = twoTargets.endings targetBeginning :=
    flagsAfter_eq_iff.1 (by decide +kernel)
  have hseveral : (twoTargets.endings singleBeginning).Nontrivial :=
    ⟨"a", mem_flagsAfter.1 (by decide +kernel), "b", mem_flagsAfter.1 (by decide +kernel),
      by decide⟩
  have hnone : ¬GroupedBy [.group .exactlyOne [.leaf "python_single_target_b"]] .exactlyOne
      (twoTargets.flagsWith singleBeginning) := by
    rintro ⟨named, hmem, hnamed⟩
    have hflag : "python_single_target_a" ∈ twoTargets.flagsWith singleBeginning :=
      ⟨"a", mem_flagsAfter.1 (by decide +kernel), rfl⟩
    rw [← hnamed] at hflag
    have hmembers : named = ["python_single_target_b"] := by simpa using hmem
    rw [hmembers] at hflag
    exact absurd (List.mem_singleton.1 hflag) (by decide)
  exact ⟨rfl, hown, hrequired, issues, hrun, hlength, hmissing.2 (.inl ⟨hsame, hseveral, hnone⟩),
    fun h => (hmismatch.1 h).1 hsame⟩

theorem not_pythonFlags_exact_loneTarget :
    loneTarget.inherits "python-r1" = false ∧
      ¬"PYTHON_REQUIRED_USE".toList <:+: loneTarget.requiredUse.toList ∧
      parseRequiredUse loneTarget.requiredUse = .ok [] ∧
      ∃ issues, pythonFound loneTarget = .ok issues ∧
        Reported "PythonMissingRequiredUse" issues ∧
        ¬(loneTarget.endings singleBeginning).Nontrivial := by
  have hown : ¬"PYTHON_REQUIRED_USE".toList <:+: loneTarget.requiredUse.toList := by decide +kernel
  have hrequired : parseRequiredUse loneTarget.requiredUse = .ok [] :=
    parseExpr_eq_ok_iff.2 .nil
  have hanswer := singleAnswer (pythonContext loneTarget) hrequired
  have hsame : loneTarget.endings singleBeginning = loneTarget.endings targetBeginning :=
    flagsAfter_eq_iff.1 (by decide +kernel)
  have hone : loneTarget.endings singleBeginning = {"a"} := by
    ext ending
    have hflags : flagsAfter loneTarget singleBeginning = ["a"] := by decide +kernel
    rw [← mem_flagsAfter, hflags, List.mem_singleton, Set.mem_singleton_iff]
  have hlone : LoneTarget loneTarget [] :=
    ⟨hsame, ⟨"a", hone⟩, fun ⟨_, hmem, _⟩ => List.not_mem_nil hmem,
      fun ⟨_, hmem, _⟩ => List.not_mem_nil hmem⟩
  refine ⟨rfl, hown, hrequired, _, ?_, hanswer.missing_iff.2 (.inr hlone), ?_⟩
  · rw [pythonFound, run_python rfl hown (find_single rfl rfl)]
    rfl
  · rw [hone]
    exact Set.not_nontrivial_singleton

end EbuildAudit.Check
