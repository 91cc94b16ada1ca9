import EbuildAudit.Check.Profiles
import EbuildAudit.Proofs.Profile.Directory
import EbuildAudit.Proofs.Profile.Eapi
import EbuildAudit.Proofs.Profile.Stack
import EbuildAudit.Proofs.Text.ByteOrder

namespace EbuildAudit.Profile.Data

/-- Directories below the top, in ascending order, and no paths with slashes at their ends. -/
structure Normal (data : Data) : Prop where
  ascending : data.dirs.Pairwise (· < ·)
  dirs : ∀ dir ∈ data.dirs, dir ≠ "" ∧ IsTrimmed dir
  parents : ∀ entry ∈ data.parents, ∀ parent ∈ entry.2, IsTrimmed parent

/-- A listed profile that exists inherits from the directory or from one below it. -/
def Needs (data : Data) (dir : String) : Prop :=
  ∃ desc ∈ data.profiles, desc.path ∈ data.dirs ∧
    ∃ path, data.Inherits desc.path path ∧ LiesIn path dir

variable {data : Data} {path dir : String}

theorem Normal.isTrimmed_of_inherits (h : data.Normal) (hdir : IsTrimmed dir)
    (hpath : data.Inherits dir path) : IsTrimmed path := by
  cases hpath.cases_tail with
  | inl heq => exact heq ▸ hdir
  | inr hlast =>
    obtain ⟨child, -, hparent⟩ := hlast
    obtain ⟨entry, hentry, -, hmem⟩ := exists_entry_of_hasParent hparent
    exact h.parents entry hentry path hmem

theorem mem_dirParents_of_inherits (h : data.Normal) (hdir : dir ≠ "") {start : String}
    (hstart : IsTrimmed start) (hpath : data.Inherits start path) :
    dir ∈ dirParents path ↔ LiesIn path dir := by
  rw [mem_dirParents (h.isTrimmed_of_inherits hstart hpath), and_iff_right_iff_imp]
  rintro (rfl | ⟨rest, rfl⟩)
  · exact hdir
  · simp

end EbuildAudit.Profile.Data

namespace EbuildAudit.Check

open Profile (Data IsDecimal Misread followedBy_concat getLast?_filter_eq_iff number)
open Profile.Data (visitAll_cons visitAll_nil visit_of_mem visit_of_not_mem)

variable {data : Data} {ctx : CheckContext} {answers : AddonId → Outcome} {unit : ScanUnit}
  {issues : List Issue} {kind dir path : String}

def profileWarning (unit : ScanUnit) (kind message : String) : Issue where
  check := "RepoProfilesCheck"
  kind := kind
  scope := unit.scope
  unit := unit.id.display
  severity := .warning
  message := message
  location := none

/-- All directories are listed, each in quotes and with commas between them. -/
def unusedIssue (unit : ScanUnit) (dirs : List String) : Issue :=
  profileWarning unit "UnusedProfileDirs"
    ("unused profile dirs: " ++ ", ".intercalate (dirs.map fun dir => "'" ++ dir ++ "'"))

/-- The profile and the directory it inherits from are named, and the EAPIs of both. -/
def laggingIssue (unit : ScanUnit) (data : Data) (path parent : String) : Issue :=
  profileWarning unit "LaggingProfileEapi"
    ("'" ++ path ++ "' profile has EAPI " ++ data.eapi path ++ ", '" ++ parent ++
      "' parent has EAPI " ++ data.eapi parent)

def laggingIssues (unit : ScanUnit) (data : Data) : List Issue :=
  (existingProfiles data).filterMap fun desc =>
    (newerParent? data desc.path).map (laggingIssue unit data desc.path)

theorem run_repoProfiles (h : answers .profiles = .ready (.profiles data)) :
    (repoProfiles.run ctx).run.answer (m := Id) answers = .ok (repoProfileIssues ctx.unit data) := by
  change Query.answer (m := Id) answers (.ask AddonId.profiles _) = _
  simp only [Query.answer, h]
  rfl

def otherKinds : List String :=
  ["NonexistentCategories", "ArchesWithoutProfiles", "ProfileError", "ProfileWarning",
    "NonexistentProfilePath"]

theorem exists_repoProfileIssues (unit : ScanUnit) (data : Data) : ∃ others,
    repoProfileIssues unit data =
      others ++ laggingIssues unit data ++ listed (unusedDirs data) (unusedIssue unit) ∧
    ∀ issue ∈ others, issue.kind ∈ otherKinds := by
  refine ⟨_, rfl, fun issue hissue => ?_⟩
  simp only [List.append_assoc, List.mem_append] at hissue
  rcases hissue with h | h | h | h | h
  · rw [eq_of_mem_listed h]
    exact List.mem_of_elem_eq_true rfl
  · rw [eq_of_mem_listed h]
    exact List.mem_of_elem_eq_true rfl
  all_goals
    obtain ⟨found, -, rfl⟩ := List.mem_map.1 h
    exact List.mem_of_elem_eq_true rfl

theorem filter_kind_eq_nil (h : ∀ issue ∈ issues, issue.kind ≠ kind) :
    issues.filter (·.kind == kind) = [] :=
  List.filter_eq_nil_iff.2 fun issue hissue => by simpa using h issue hissue

theorem filter_kind_eq_self (h : ∀ issue ∈ issues, issue.kind = kind) :
    issues.filter (·.kind == kind) = issues :=
  List.filter_eq_self.2 fun issue hissue => by simpa using h issue hissue

theorem kind_of_mem_laggingIssues {issue : Issue} (h : issue ∈ laggingIssues unit data) :
    issue.kind = "LaggingProfileEapi" := by
  obtain ⟨desc, -, hdesc⟩ := List.mem_filterMap.1 h
  obtain ⟨parent, -, rfl⟩ := Option.map_eq_some_iff.1 hdesc
  rfl

theorem filter_laggingProfileEapi (unit : ScanUnit) (data : Data) :
    (repoProfileIssues unit data).filter (·.kind == "LaggingProfileEapi") =
      laggingIssues unit data := by
  obtain ⟨others, hissues, hothers⟩ := exists_repoProfileIssues unit data
  have hnone : others.filter (·.kind == "LaggingProfileEapi") = [] :=
    filter_kind_eq_nil fun issue hissue hkind => absurd (hkind ▸ hothers issue hissue) (by decide)
  have hunused : (listed (unusedDirs data) (unusedIssue unit)).filter
      (·.kind == "LaggingProfileEapi") = [] :=
    filter_kind_eq_nil fun issue hissue hkind => by
      rw [eq_of_mem_listed hissue] at hkind
      exact absurd hkind (by decide : "UnusedProfileDirs" ≠ "LaggingProfileEapi")
  rw [hissues, List.filter_append, List.filter_append, hnone, hunused,
    filter_kind_eq_self fun _ => kind_of_mem_laggingIssues, List.nil_append, List.append_nil]

theorem filter_unusedProfileDirs (unit : ScanUnit) (data : Data) :
    (repoProfileIssues unit data).filter (·.kind == "UnusedProfileDirs") =
      listed (unusedDirs data) (unusedIssue unit) := by
  obtain ⟨others, hissues, hothers⟩ := exists_repoProfileIssues unit data
  have hnone : others.filter (·.kind == "UnusedProfileDirs") = [] :=
    filter_kind_eq_nil fun issue hissue hkind => absurd (hkind ▸ hothers issue hissue) (by decide)
  have hlagging : (laggingIssues unit data).filter (·.kind == "UnusedProfileDirs") = [] :=
    filter_kind_eq_nil fun issue hissue hkind =>
      absurd ((kind_of_mem_laggingIssues hissue).symm.trans hkind) (by decide)
  rw [hissues, List.filter_append, List.filter_append, hnone, hlagging,
    filter_kind_eq_self fun issue hissue => by rw [eq_of_mem_listed hissue]; rfl,
    List.nil_append, List.nil_append]

theorem mem_usedDirs (h : data.Normal) (hdir : dir ≠ "") :
    dir ∈ usedDirs data ↔ data.Needs dir := by
  simp only [usedDirs, existingProfiles, List.mem_flatMap, List.mem_filter, List.contains_iff_mem,
    Data.mem_stack, Data.Needs, and_assoc]
  refine exists_congr fun desc => and_congr_right fun _ => and_congr_right fun hdesc => ?_
  refine exists_congr fun path => and_congr_right fun hpath => ?_
  exact Data.mem_dirParents_of_inherits h hdir (h.dirs _ hdesc).2 hpath

theorem mem_unusedDirs (h : data.Normal) :
    dir ∈ unusedDirs data ↔ dir ∈ data.dirs ∧ dir ≠ "embedded" ∧ ¬data.Needs dir := by
  simp only [unusedDirs, unlistedDirs, List.mem_filter]
  refine and_congr_right fun hdir => ?_
  rw [← mem_usedDirs h (h.dirs dir hdir).1]
  simp

/--
The directories that are reported as unused are those that no profile needs, in one issue if there
are any, in the order of their bytes.
-/
theorem unusedDirs_exact (data : Data) (ctx : CheckContext) (answers : AddonId → Outcome)
    (hanswer : answers .profiles = .ready (.profiles data)) (hnormal : data.Normal) :
    ∃ issues unused, (repoProfiles.run ctx).run.answer (m := Id) answers = .ok issues ∧
      issues.filter (·.kind == "UnusedProfileDirs") =
        (if unused = [] then [] else [unusedIssue ctx.unit unused]) ∧
      unused.Pairwise (fun dir later => Text.bytes dir < Text.bytes later) ∧
      ∀ dir, dir ∈ unused ↔ dir ∈ data.dirs ∧ dir ≠ "embedded" ∧ ¬data.Needs dir := by
  refine ⟨_, unusedDirs data, run_repoProfiles hanswer, ?_, ?_, fun dir => mem_unusedDirs hnormal⟩
  · rw [filter_unusedProfileDirs, listed]
    simp only [List.isEmpty_iff]
  · exact (hnormal.ascending.filter _).imp Text.bytes_lt_bytes

namespace Sample

def site : ScanUnit :=
  ⟨.repository, "r", 0⟩

def found (data : Data) : Except CheckFault (List Issue) :=
  (repoProfiles.run ⟨site, none, none, [], 0⟩).run.answer (m := Id) fun _ =>
    .ready (.profiles data)

def looped : Data :=
  { Data.empty with
    profiles := [⟨"x86", "x86/min", "stable", 1⟩, ⟨"arm", "arm/min", "dev", 2⟩]
    dirs := ["base", "base/all", "embedded", "old", "x86", "x86/max", "x86/min"]
    parents := [("x86/min", ["base/all"]), ("base/all", ["x86/min"])] }

theorem stack_looped : looped.stack "x86/min" = ["base/all", "x86/min"] := by
  have hmin : looped.parentsOf "x86/min" = ["base/all"] := by decide
  have hall : looped.parentsOf "base/all" = ["x86/min"] := by decide
  simp [Data.stack, visit_of_not_mem, visit_of_mem, visitAll_nil, visitAll_cons, hmin, hall]

theorem usedDirs_looped : usedDirs looped = ["base/all", "base", "x86/min", "x86"] := by
  have hprofiles : existingProfiles looped = [⟨"x86", "x86/min", "stable", 1⟩] := by
    decide
  rw [usedDirs, hprofiles, List.flatMap_singleton, stack_looped]
  decide

end Sample

open Sample

theorem unusedDirs_exact_looped : looped.Normal ∧
    ∃ issues, found looped = .ok issues ∧
      issues.filter (·.kind == "UnusedProfileDirs") =
        [⟨"RepoProfilesCheck", "UnusedProfileDirs", .repository, "repository", .warning,
          "unused profile dirs: 'old', 'x86/max'", none⟩] := by
  have hnormal : looped.Normal :=
    ⟨by decide, by decide, by decide⟩
  obtain ⟨issues, unused, hrun, hissues, hordered, hunused⟩ :=
    unusedDirs_exact looped ⟨site, none, none, [], 0⟩ (fun _ => .ready (.profiles looped)) rfl
      hnormal
  have hmem (dir : String) : dir ∈ unused ↔ dir ∈ ["old", "x86/max"] := by
    rw [hunused, ← mem_unusedDirs hnormal, unusedDirs, usedDirs_looped]
    exact Iff.of_eq (congrArg (dir ∈ ·) (by decide))
  have hinorder : ["old", "x86/max"].Pairwise (· < ·) := by decide
  have hlisted : unused = ["old", "x86/max"] :=
    hordered.eq_of_mem_iff (hinorder.imp Text.bytes_lt_bytes) hmem
  rw [hlisted, if_neg (List.cons_ne_nil _ _)] at hissues
  refine ⟨hnormal, issues, hrun, hissues.trans ?_⟩
  decide

theorem newerParent?_eq_greaterParent?_iff (h : ∀ entry ∈ data.eapis, IsDecimal entry.2) :
    newerParent? data path = data.greaterParent? path ↔ data.Recovers path := by
  have hmisread (dir : String) : (decide (data.eapi path < data.eapi dir) ≠
      decide (number (data.eapi path) < number (data.eapi dir))) ↔
        Misread (data.eapi path) (data.eapi dir) := by
    rw [ne_eq, decide_eq_decide, Profile.lt_iff_number_lt_iff (Data.isDecimal_eapi h path)
      (Data.isDecimal_eapi h dir), not_not]
  rw [newerParent?, Data.greaterParent?, getLast?_filter_eq_iff, Data.Recovers]
  simp only [hmisread, decide_eq_true_eq]

/--
A profile is said to lag behind the last directory it inherits from whose EAPI comes later as a text.
That is the last one with a greater EAPI just if no misread EAPI is left at the end.
-/
theorem laggingEapi_exact_iff (data : Data) (ctx : CheckContext) (answers : AddonId → Outcome)
    (hanswer : answers .profiles = .ready (.profiles data))
    (hdecimal : ∀ entry ∈ data.eapis, IsDecimal entry.2) :
    ∃ issues, (repoProfiles.run ctx).run.answer (m := Id) answers = .ok issues ∧
      issues.filter (·.kind == "LaggingProfileEapi") = laggingIssues ctx.unit data ∧
      ∀ path, newerParent? data path = data.greaterParent? path ↔ data.Recovers path :=
  ⟨_, run_repoProfiles hanswer, filter_laggingProfileEapi ctx.unit data,
    fun _ => newerParent?_eq_greaterParent?_iff hdecimal⟩

namespace Sample

def sevenths : Data :=
  { Data.empty with
    profiles := [⟨"x86", "x86", "stable", 1⟩]
    dirs := ["new", "old", "x86"]
    parents := [("x86", ["new", "old"])]
    eapis := [("new", "10"), ("old", "8"), ("x86", "7")] }

def ninths : Data :=
  { Data.empty with
    profiles := [⟨"x86", "x86", "stable", 1⟩]
    dirs := ["new", "x86"]
    parents := [("x86", ["new"])]
    eapis := [("new", "10"), ("x86", "9")] }

theorem stack_sevenths : sevenths.stack "x86" = ["new", "old", "x86"] := by
  have hprofile : sevenths.parentsOf "x86" = ["new", "old"] := by decide
  have hnew : sevenths.parentsOf "new" = [] := by decide
  have hold : sevenths.parentsOf "old" = [] := by decide
  simp [Data.stack, visit_of_not_mem, visitAll_nil, visitAll_cons, hprofile, hnew, hold]

theorem stack_ninths : ninths.stack "x86" = ["new", "x86"] := by
  have hprofile : ninths.parentsOf "x86" = ["new"] := by decide
  have hnew : ninths.parentsOf "new" = [] := by decide
  simp [Data.stack, visit_of_not_mem, visitAll_nil, visitAll_cons, hprofile, hnew]

end Sample

theorem laggingEapi_exact_iff_sevenths : (∀ entry ∈ sevenths.eapis, IsDecimal entry.2) ∧
    sevenths.greaterParent? "x86" = some "old" ∧
    ∃ issues, found sevenths = .ok issues ∧
      issues.filter (·.kind == "LaggingProfileEapi") =
        [⟨"RepoProfilesCheck", "LaggingProfileEapi", .repository, "repository", .warning,
          "'x86' profile has EAPI 7, 'old' parent has EAPI 8", none⟩] := by
  have hdecimal : ∀ entry ∈ sevenths.eapis, IsDecimal entry.2 := by decide
  obtain ⟨issues, hrun, hissues, hiff⟩ := laggingEapi_exact_iff sevenths
    ⟨site, none, none, [], 0⟩ (fun _ => .ready (.profiles sevenths)) rfl hdecimal
  have hgreater : sevenths.greaterParent? "x86" = some "old" := by
    rw [Data.greaterParent?, stack_sevenths]
    decide
  have hrecovers : sevenths.Recovers "x86" := by
    rw [Data.Recovers, stack_sevenths]
    refine followedBy_concat (l := ["new", "old"]).2 ⟨by decide, .inr ?_⟩
    exact followedBy_concat (l := ["new"]).2 ⟨by decide, .inl (by decide)⟩
  have hnewer := ((hiff "x86").2 hrecovers).trans hgreater
  have hprofiles : existingProfiles sevenths = [⟨"x86", "x86", "stable", 1⟩] := by
    decide
  refine ⟨hdecimal, hgreater, issues, hrun, ?_⟩
  rw [hissues, laggingIssues, hprofiles]
  simp only [List.filterMap_cons, hnewer, Option.map_some, List.filterMap_nil]
  decide

/-- The EAPI 10 is greater than the EAPI 9, but nothing is said of it. -/
theorem not_laggingEapi_exact_ninths : (∀ entry ∈ ninths.eapis, IsDecimal entry.2) ∧
    ninths.greaterParent? "x86" = some "new" ∧
    ∃ issues, found ninths = .ok issues ∧
      issues.filter (·.kind == "LaggingProfileEapi") = [] := by
  have hgreater : ninths.greaterParent? "x86" = some "new" := by
    rw [Data.greaterParent?, stack_ninths]
    decide
  have hnewer : newerParent? ninths "x86" = none := by
    rw [newerParent?, stack_ninths]
    decide
  have hprofiles : existingProfiles ninths = [⟨"x86", "x86", "stable", 1⟩] := by
    decide
  refine ⟨by decide, hgreater, _, run_repoProfiles rfl, ?_⟩
  rw [filter_laggingProfileEapi, laggingIssues, hprofiles]
  simp only [List.filterMap_cons, hnewer, Option.map_none, List.filterMap_nil]

end EbuildAudit.Check
