import EbuildAudit.Check.Dependency
import Mathlib.Data.List.Basic

namespace EbuildAudit.Check

open Dependency

/-- An atom that asks for a flag does not say what holds of this version, which it matches. -/
def IsLacking (atom : Atom) (flag : String) (v : Package.IndexedVersion) : Prop :=
  v.parsed?.any atom.matchesVersion = true ∧ v.hasFlag flag = false

instance (atom : Atom) (flag : String) : DecidablePred (IsLacking atom flag) :=
  fun _ => inferInstanceAs (Decidable (_ ∧ _))

def lackingVersions (index : Package.Index) (atom : Atom) (flag : String) : List String :=
  ((index.versions atom.key).filter (IsLacking atom flag ·)).map (·.version)

/-- An atom because of which a flag of a package is told. -/
def Due (index : Package.Index) (key flag : String) (atom : Atom) : Prop :=
  atom.blocker = false ∧ atom.key = key ∧
    (∃ dep ∈ atom.useDeps, dep.flag = flag ∧ dep.default = none) ∧
    ∃ v ∈ index.versions key, IsLacking atom flag v

instance (index : Package.Index) (key flag : String) : DecidablePred (Due index key flag) :=
  fun _ => inferInstanceAs (Decidable (_ ∧ _ ∧ _ ∧ _))

namespace LackingFlag

def IsFor (key flag : String) (l : LackingFlag) : Prop :=
  l.key = key ∧ l.flag = flag

instance (key flag : String) : DecidablePred (IsFor key flag) :=
  fun _ => inferInstanceAs (Decidable (_ ∧ _))

variable {key flag : String} {l l' : LackingFlag} {all done : List LackingFlag}

theorem isSame_iff : l.isSame l' = true ↔ l'.IsFor l.key l.flag := by
  rw [isSame, Bool.and_eq_true, beq_iff_eq, beq_iff_eq, IsFor, eq_comm, @eq_comm _ l.flag]

def keep (done all : List LackingFlag) : List LackingFlag :=
  all.foldl (fun done l => if done.any l.isSame then done else l :: done) done

theorem keep_cons : keep done (l :: all) =
    if ∃ d ∈ done, d.IsFor l.key l.flag then keep done all else keep (l :: done) all := by
  rw [keep, List.foldl_cons, ← keep]
  simp only [List.any_eq_true, isSame_iff]
  split <;> rfl

theorem find?_keep (done all : List LackingFlag) :
    (keep done all).reverse.find? (IsFor key flag ·) =
      (done.reverse ++ all).find? (IsFor key flag ·) := by
  induction all generalizing done with
  | nil => rw [keep, List.foldl_nil, List.append_nil]
  | cons l all ih =>
    rw [keep_cons]
    split
    case isTrue hdone =>
      obtain ⟨d, hd, hsame⟩ := hdone
      rw [ih, List.find?_append, List.find?_append]
      by_cases hl : l.IsFor key flag
      · have hfound : (done.reverse.find? (IsFor key flag ·)).isSome := by
          rw [List.find?_isSome]
          refine ⟨d, List.mem_reverse.2 hd, decide_eq_true ?_⟩
          exact ⟨hsame.1.trans hl.1, hsame.2.trans hl.2⟩
        rw [Option.or_of_isSome hfound, Option.or_of_isSome hfound]
      · rw [List.find?_cons_of_neg (by simpa using hl)]
    case isFalse => rw [ih, List.reverse_cons, List.append_assoc, List.singleton_append]

theorem keep_pairwise (all : List LackingFlag)
    (h : done.Pairwise fun l l' => ¬l'.IsFor l.key l.flag) :
    (keep done all).Pairwise fun l l' => ¬l'.IsFor l.key l.flag := by
  induction all generalizing done with
  | nil => exact h
  | cons l all ih =>
    rw [keep_cons]
    split
    case isTrue => exact ih h
    case isFalse hnew =>
      exact ih (List.pairwise_cons.2 ⟨fun d hd hsame => hnew ⟨d, hd, hsame⟩, h⟩)

theorem filter_eq_find? (h : all.Pairwise fun l l' => ¬l'.IsFor l.key l.flag) :
    all.filter (IsFor key flag ·) = (all.find? (IsFor key flag ·)).toList := by
  induction all with
  | nil => rfl
  | cons l all ih =>
    obtain ⟨hl, hall⟩ := List.pairwise_cons.1 h
    by_cases hfor : l.IsFor key flag
    · obtain ⟨rfl, rfl⟩ := hfor
      have hnone : all.filter (IsFor l.key l.flag ·) = [] :=
        List.filter_eq_nil_iff.2 fun l' hl' => by simpa using hl l' hl'
      have hself : decide (IsFor l.key l.flag l) = true := decide_eq_true ⟨rfl, rfl⟩
      rw [List.filter_cons, if_pos hself, hnone, List.find?_cons, hself]
      rfl
    · have hother : decide (IsFor key flag l) = false := decide_eq_false hfor
      rw [List.filter_cons, if_neg (by simp [hother]), List.find?_cons, hother, ih hall]

end LackingFlag

open LackingFlag (IsFor keep)

variable {index : Package.Index} {atom : Atom} {atoms : List Atom} {key flag : String}

theorem lackingFlags_eq (index : Package.Index) (atoms : List Atom) : lackingFlags index atoms =
    (keep [] ((atoms.filter (!·.blocker)).flatMap (lackingFlagsOf index))).reverse :=
  rfl

theorem lackingFlagsOf_eq (index : Package.Index) (atom : Atom) : lackingFlagsOf index atom =
    (atom.useDeps.filter (·.default.isNone)).filterMap fun dep =>
      if lackingVersions index atom dep.flag = [] then none
      else some ⟨atom.key, dep.flag, lackingVersions index atom dep.flag⟩ := by
  rw [lackingFlagsOf]
  congr 1
  funext dep
  have hfilter : (matchingVersions index atom).filter (!·.hasFlag dep.flag) =
      (index.versions atom.key).filter (IsLacking atom dep.flag ·) := by
    rw [matchingVersions, List.filter_filter]
    congr 1
    funext v
    rw [Bool.eq_iff_iff]
    simp [IsLacking, and_comm]
  simp only [hfilter, lackingVersions, List.isEmpty_iff, List.map_eq_nil_iff]

theorem lackingVersions_eq_nil_iff :
    lackingVersions index atom flag = [] ↔ ∀ v ∈ index.versions atom.key, ¬IsLacking atom flag v := by
  simp [lackingVersions]

theorem mem_lackingFlagsOf (hatom : atom.blocker = false) {versions : List String} :
    ⟨key, flag, versions⟩ ∈ lackingFlagsOf index atom ↔
      Due index key flag atom ∧ versions = lackingVersions index atom flag := by
  simp only [lackingFlagsOf_eq, List.mem_filterMap, List.mem_filter, Option.isNone_iff_eq_none,
    Option.ite_none_left_eq_some, Option.some.injEq, LackingFlag.mk.injEq,
    lackingVersions_eq_nil_iff]
  constructor
  · rintro ⟨dep, ⟨hdep, hdefault⟩, hlacking, rfl, rfl, rfl⟩
    exact ⟨⟨hatom, rfl, ⟨dep, hdep, rfl, hdefault⟩, by simpa using hlacking⟩, rfl⟩
  · rintro ⟨⟨-, rfl, ⟨dep, hdep, rfl, hdefault⟩, v, hv, hlacking⟩, rfl⟩
    exact ⟨dep, ⟨hdep, hdefault⟩, fun hnone => hnone v hv hlacking, rfl, rfl, rfl⟩

theorem find?_lackingFlagsOf (hatom : atom.blocker = false) (key flag : String) :
    (lackingFlagsOf index atom).find? (IsFor key flag ·) =
      if Due index key flag atom then some ⟨key, flag, lackingVersions index atom flag⟩
      else none := by
  cases hfind : (lackingFlagsOf index atom).find? (IsFor key flag ·) with
  | some l =>
    have hfor : l.IsFor key flag := by simpa using List.find?_some hfind
    obtain ⟨rfl, rfl⟩ := hfor
    obtain ⟨hdue, hversions⟩ := (mem_lackingFlagsOf hatom).1 (List.mem_of_find?_eq_some hfind)
    rw [if_pos hdue, ← hversions]
  | none =>
    rw [if_neg]
    intro hdue
    have hother := List.find?_eq_none.1 hfind _ ((mem_lackingFlagsOf hatom).2 ⟨hdue, rfl⟩)
    exact hother (decide_eq_true ⟨rfl, rfl⟩)

/-- The first atom that gives a reason to tell of a flag is the one that is told of. -/
theorem find?_lackingFlags (index : Package.Index) (atoms : List Atom) (key flag : String) :
    (lackingFlags index atoms).find? (IsFor key flag ·) =
      (atoms.find? (Due index key flag ·)).map fun atom =>
        ⟨key, flag, lackingVersions index atom flag⟩ := by
  rw [lackingFlags_eq, LackingFlag.find?_keep, List.reverse_nil, List.nil_append]
  induction atoms with
  | nil => rfl
  | cons atom atoms ih =>
    cases hatom : atom.blocker with
    | true =>
      have hother : ¬Due index key flag atom := fun hdue => by simp [hdue.1] at hatom
      rw [List.filter_cons_of_neg (by simp [hatom]), ih, List.find?_cons, decide_eq_false hother]
    | false =>
      rw [List.filter_cons_of_pos (by simp [hatom]), List.flatMap_cons, List.find?_append, ih,
        find?_lackingFlagsOf hatom, List.find?_cons]
      by_cases hdue : Due index key flag atom
      · rw [if_pos hdue, decide_eq_true hdue]
        rfl
      · rw [if_neg hdue, decide_eq_false hdue]
        rfl

theorem filter_lackingFlags (index : Package.Index) (atoms : List Atom) (key flag : String) :
    (lackingFlags index atoms).filter (IsFor key flag ·) =
      ((atoms.find? (Due index key flag ·)).map fun atom =>
        (⟨key, flag, lackingVersions index atom flag⟩ : LackingFlag)).toList := by
  rw [← find?_lackingFlags]
  apply LackingFlag.filter_eq_find?
  rw [lackingFlags_eq, List.pairwise_reverse]
  exact (LackingFlag.keep_pairwise _ .nil).imp fun hother hsame =>
    hother ⟨hsame.1.symm, hsame.2.symm⟩

theorem exists_lackingFlags_iff (index : Package.Index) (atoms : List Atom) (key flag : String) :
    (∃ l ∈ lackingFlags index atoms, l.IsFor key flag) ↔ ∃ atom ∈ atoms, Due index key flag atom := by
  have hfind := congrArg Option.isSome (find?_lackingFlags index atoms key flag)
  rw [Option.isSome_map, Bool.eq_iff_iff, List.find?_isSome, List.find?_isSome] at hfind
  simpa only [decide_eq_true_eq] using hfind

def variableAtoms? (metadata : Ebuild.Metadata) (name : String) : Option (List Atom) := do
  let value ← metadata.depends.lookup name
  let nodes ← (parseDepend (expandReferences metadata.depends value)).toOption
  return Expr.leavesOf nodes

/-- What is said of a flag at the line of a variable: the versions that lack it, all of them. -/
def missingDefault (ctx : CheckContext) (metadata : Ebuild.Metadata) (name : String)
    (l : LackingFlag) : Issue where
  check := "DependencyCheck"
  kind := "MissingUseDepDefault"
  scope := ctx.unit.scope
  unit := ctx.unit.id.display
  severity := .warning
  message := name ++ ": " ++ (l.key ++ "[" ++ l.flag ++ "]: USE flag '" ++ l.flag ++
    "' missing from version(s): " ++ ", ".intercalate l.versions)
  location := some ⟨(metadata.lineOf? name).getD 1, 1⟩

def variableFlags (metadata : Ebuild.Metadata) (index : Package.Index) (name : String) :
    List LackingFlag :=
  lackingFlags index ((variableAtoms? metadata name).getD [])

variable {ctx : CheckContext} {metadata : Ebuild.Metadata} {name value : String}
  {answers : AddonId → Outcome}

theorem filter_unstated (ctx : CheckContext) (metadata : Ebuild.Metadata) (name : String)
    (flags : List String) :
    (unstated ctx metadata name flags).filter (·.kind == "MissingUseDepDefault") = [] := by
  simp only [unstated]
  split <;> rfl

theorem filter_requiredUseIssues (ctx : CheckContext) (metadata : Ebuild.Metadata) :
    (requiredUseIssues ctx metadata).filter (·.kind == "MissingUseDepDefault") = [] := by
  rw [requiredUseIssues]
  split
  · rfl
  · split
    · rfl
    · exact filter_unstated _ _ _ _

theorem filter_dependencyIssues (hvalue : metadata.depends.lookup name = some value) :
    (dependencyIssues ctx metadata index name value).filter (·.kind == "MissingUseDepDefault") =
      (variableFlags metadata index name).map (missingDefault ctx metadata name) := by
  rw [dependencyIssues, variableFlags, variableAtoms?, hvalue, Option.bind_eq_bind, Option.bind_some]
  cases parseDepend (expandReferences metadata.depends value) with
  | error e => rfl
  | ok nodes =>
    rw [List.filter_append, filter_unstated, List.nil_append, List.filter_eq_self.2]
    · rfl
    · intro issue hissue
      obtain ⟨l, -, rfl⟩ := List.mem_map.1 hissue
      rfl

theorem run_dependencies (hmetadata : ctx.metadata = some metadata)
    (hanswer : answers .packages = .ready (.packages index)) :
    (dependencies.run ctx).run.answer (m := Id) answers =
      .ok ((checkedVariables.flatMap fun name =>
        match metadata.depends.lookup name with
        | some value => dependencyIssues ctx metadata index name value
        | none => []) ++ requiredUseIssues ctx metadata) := by
  have hneed : ctx.needMetadata = pure metadata := by rw [CheckContext.needMetadata, hmetadata]
  change ((ctx.needMetadata >>= fun metadata => _) : Checking _).run.answer (m := Id) answers = _
  rw [hneed]
  change Query.answer (m := Id) answers (.ask AddonId.packages _) = _
  simp only [Query.answer, hanswer]
  rfl

/--
For each variable that can be read, a flag of a package is told of once if there is an atom that is
due, with the versions that matter for the first such atom; otherwise it is not told of.
-/
theorem missingDefaults_exact (hmetadata : ctx.metadata = some metadata)
    (hanswer : answers .packages = .ready (.packages index)) :
    ∃ (issues : List Issue) (found : String → List LackingFlag),
      (dependencies.run ctx).run.answer (m := Id) answers = .ok issues ∧
      issues.filter (·.kind == "MissingUseDepDefault") =
        checkedVariables.flatMap (fun name =>
          (found name).map (missingDefault ctx metadata name)) ∧
      (∀ name, variableAtoms? metadata name = none → found name = []) ∧
      ∀ name atoms, variableAtoms? metadata name = some atoms → ∀ key flag,
        ((∃ l ∈ found name, l.IsFor key flag) ↔ ∃ atom ∈ atoms, Due index key flag atom) ∧
        (found name).filter (IsFor key flag ·) =
          ((atoms.find? (Due index key flag ·)).map fun atom =>
            (⟨key, flag, lackingVersions index atom flag⟩ : LackingFlag)).toList := by
  refine ⟨_, variableFlags metadata index, run_dependencies hmetadata hanswer, ?_, ?_, ?_⟩
  · rw [List.filter_append, filter_requiredUseIssues, List.append_nil, List.filter_flatMap]
    refine List.flatMap_congr fun name _ => ?_
    cases hvalue : metadata.depends.lookup name with
    | some value => exact filter_dependencyIssues hvalue
    | none =>
      rw [variableFlags, variableAtoms?, hvalue]
      rfl
  · intro name hnone
    rw [variableFlags, hnone]
    rfl
  · intro name atoms hatoms key flag
    rw [variableFlags, hatoms, Option.getD_some]
    exact ⟨exists_lackingFlags_iff index atoms key flag, filter_lackingFlags index atoms key flag⟩

namespace Sample

def dependent : Ebuild.Metadata where
  eapi := "8"
  inherited := []
  iuse := []
  keywords := []
  slot := "0"
  depends := [("BDEPEND", "<a/b-2[c] || ( >=a/b-3[c] a/b[c,c] )"), ("DEPEND", "(")]
  requiredUse := ""
  variableLines := [("BDEPEND", 4)]
  script := ""

def narrowed : Package.Index :=
  ⟨[("a/b", [⟨"1", [⟨"c", none⟩], []⟩, ⟨"2", [], []⟩, ⟨"3", [⟨"d", none⟩], []⟩,
    ⟨"4", [], []⟩])]⟩

def dependentContext : CheckContext where
  unit := ⟨.version "a" "p" "1", "a/p/p-1.ebuild", 0⟩
  metadata := some dependent
  script := none
  children := []
  childCount := 0

def dependentAtoms : List Atom :=
  (variableAtoms? dependent "BDEPEND").getD []

def narrowedAnswer (_ : AddonId) : Outcome :=
  .ready (.packages narrowed)

end Sample

open Sample

theorem missingDefaults_exact_narrowed :
    ∃ issues,
      (dependencies.run dependentContext).run.answer (m := Id) narrowedAnswer = .ok issues ∧
      ⟨"DependencyCheck", "MissingUseDepDefault", .version, "a/p-1", .warning,
        "BDEPEND: a/b[c]: USE flag 'c' missing from version(s): 3, 4", some ⟨4, 1⟩⟩ ∈ issues ∧
      variableAtoms? dependent "BDEPEND" = some dependentAtoms ∧ dependentAtoms.length = 3 ∧
      variableAtoms? dependent "DEPEND" = none := by
  have hmetadata : dependentContext.metadata = some dependent := rfl
  have hanswer : narrowedAnswer .packages = .ready (.packages narrowed) := rfl
  obtain ⟨issues, found, hrun, hissues, -, hfound⟩ := missingDefaults_exact hmetadata hanswer
  have hatoms : variableAtoms? dependent "BDEPEND" = some dependentAtoms := by decide +kernel
  have hfirst : (dependentAtoms.find? (Due narrowed "a/b" "c" ·)).map (fun atom =>
      (⟨"a/b", "c", lackingVersions narrowed atom "c"⟩ : LackingFlag)) =
        some ⟨"a/b", "c", ["3", "4"]⟩ := by decide +kernel
  have hfilter := (hfound "BDEPEND" dependentAtoms hatoms "a/b" "c").2
  rw [hfirst] at hfilter
  have htold : (⟨"a/b", "c", ["3", "4"]⟩ : LackingFlag) ∈
      (found "BDEPEND").filter (IsFor "a/b" "c" ·) := by
    rw [hfilter]
    exact List.mem_singleton_self _
  have hmem : missingDefault dependentContext dependent "BDEPEND" ⟨"a/b", "c", ["3", "4"]⟩ ∈
      issues.filter (·.kind == "MissingUseDepDefault") := by
    rw [hissues]
    exact List.mem_flatMap.2
      ⟨"BDEPEND", by decide, List.mem_map_of_mem (List.mem_of_mem_filter htold)⟩
  have htext : missingDefault dependentContext dependent "BDEPEND" ⟨"a/b", "c", ["3", "4"]⟩ =
      ⟨"DependencyCheck", "MissingUseDepDefault", .version, "a/p-1", .warning,
        "BDEPEND: a/b[c]: USE flag 'c' missing from version(s): 3, 4", some ⟨4, 1⟩⟩ := by decide
  refine ⟨issues, hrun, ?_, hatoms, by decide +kernel, by decide +kernel⟩
  rw [← htext]
  exact List.mem_of_mem_filter hmem

end EbuildAudit.Check
