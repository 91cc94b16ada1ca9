import EbuildAudit.Check.Catalog

namespace EbuildAudit

def Checking.Returns (P : α → Prop) (x : Checking α) : Prop :=
  ∀ answers a, x.run.answer (m := Id) answers = .ok a → P a

structure Check.Reports (c : Check) (unit : ScanUnit) (issue : Issue) : Prop where
  check : issue.check = c.name
  kind : issue.kind ∈ c.knownKinds
  unit : issue.unit = unit.id.display

def Check.Candid (c : Check) : Prop :=
  ∀ ctx, Checking.Returns (fun issues => ∀ issue ∈ issues, c.Reports ctx.unit issue) (c.run ctx)

variable {P : α → Prop} {Q : β → Prop}

theorem Query.answer_bind (answers : AddonId → Outcome) (q : Query α) (f : α → Query β) :
    (q.bind f).answer (m := Id) answers =
      (f (q.answer (m := Id) answers)).answer (m := Id) answers := by
  induction q with
  | done a => rfl
  | ask addon next ih => exact ih (answers addon)

namespace Checking.Returns

theorem pure {a : α} (h : P a) : Returns P (Pure.pure a) := by
  rintro answers b hb
  cases hb
  exact h

theorem any (x : Checking α) : Returns (fun _ => True) x :=
  fun _ _ _ => trivial

theorem bind {x : Checking α} {f : α → Checking β} (hx : Returns P x)
    (hf : ∀ a, P a → Returns Q (f a)) : Returns Q (x >>= f) := by
  intro answers b hb
  change (Query.bind x.run _).answer answers = _ at hb
  rw [Query.answer_bind] at hb
  cases ha : x.run.answer (m := Id) answers with
  | error fault =>
    rw [ha] at hb
    cases hb
  | ok a =>
    rw [ha] at hb
    exact hf a (hx answers a ha) answers b hb

theorem after {x : Checking α} {f : α → Checking β} (hf : ∀ a, Returns Q (f a)) :
    Returns Q (x >>= f) :=
  bind (any x) fun a _ => hf a

end Checking.Returns

namespace Check

open Checking (Returns)

theorem Reports.new {c : Check} {unit : ScanUnit} {kind message : String} {severity : Severity}
    (h : kind ∈ c.knownKinds) : c.Reports unit (.new c.name kind unit severity message) :=
  ⟨rfl, h, rfl⟩

theorem Reports.placed {c : Check} {unit : ScanUnit} {issue : Issue} {line column : Nat}
    (h : c.Reports unit issue) : c.Reports unit (issue.placed line column) :=
  ⟨h.check, h.kind, h.unit⟩

theorem detecting_candid (name : String) (detectors : List Shell.Detector) :
    (detecting name detectors).Candid := by
  intro ctx
  refine Returns.after fun metadata => Returns.after fun script => ?_
  cases script with
  | error failure => exact .pure nofun
  | ok tree =>
    apply Returns.pure
    intro issue hissue
    obtain ⟨finding, hfinding, rfl⟩ := List.mem_map.1 hissue
    exact .placed (.new (Shell.kind_of_analyze hfinding))

theorem shellSyntax_candid : shellSyntax.Candid := by
  intro ctx
  refine Returns.after fun script => ?_
  cases script with
  | error failure =>
    apply Returns.pure
    intro issue hissue
    cases List.mem_singleton.1 hissue
    exact .placed (.new (by decide))
  | ok tree => exact .pure nofun

section

variable {ctx : CheckContext} {metadata : Ebuild.Metadata} {issue : Issue}

theorem unstated_reports {name : String} {flags : List String}
    (h : issue ∈ unstated ctx metadata name flags) : dependencies.Reports ctx.unit issue := by
  simp only [unstated] at h
  split at h
  · cases h
  · cases List.mem_singleton.1 h
    exact .placed (.new (by decide))

theorem dependencyIssues_reports {index : Package.Index} {name value : String}
    (h : issue ∈ dependencyIssues ctx metadata index name value) :
    dependencies.Reports ctx.unit issue := by
  simp only [dependencyIssues] at h
  split at h
  case h_1 =>
    cases List.mem_singleton.1 h
    exact .placed (.new (by decide))
  case h_2 =>
    rcases List.mem_append.1 h with h | h
    · exact unstated_reports h
    · obtain ⟨lacking, -, rfl⟩ := List.mem_map.1 h
      exact .placed (.new (by decide))

theorem requiredUseIssues_reports (h : issue ∈ requiredUseIssues ctx metadata) :
    dependencies.Reports ctx.unit issue := by
  simp only [requiredUseIssues] at h
  split at h
  case isTrue => cases h
  case isFalse =>
    split at h
    case h_1 =>
      cases List.mem_singleton.1 h
      exact .placed (.new (by decide))
    case h_2 => exact unstated_reports h

theorem dependencies_candid : dependencies.Candid := by
  intro ctx
  refine Returns.after fun metadata => Returns.after fun index => Returns.pure ?_
  intro issue hissue
  rcases List.mem_append.1 hissue with h | h
  · obtain ⟨name, -, hname⟩ := List.mem_flatMap.1 h
    split at hname
    · exact dependencyIssues_reports hname
    · cases hname
  · exact requiredUseIssues_reports h

theorem missingEclass_reports (h : issue ∈ missingEclass ctx metadata) :
    python.Reports ctx.unit issue := by
  simp only [missingEclass] at h
  split at h
  · cases h
  · cases List.mem_singleton.1 h
    exact .placed (.new (by decide))

theorem requireGroup_reports {required : List (Dependency.Expr String)} {group : Dependency.Group}
    {beginning : String} {endings : List String}
    (h : issue ∈ requireGroup ctx metadata required group beginning endings) :
    python.Reports ctx.unit issue := by
  simp only [requireGroup] at h
  split at h
  · cases h
  · cases List.mem_singleton.1 h
    exact .placed (.new (by decide))

theorem eclassIssues_reports {eclass : String} (h : issue ∈ eclassIssues ctx metadata eclass) :
    python.Reports ctx.unit issue := by
  simp only [eclassIssues] at h
  split at h
  case isTrue =>
    split at h
    · cases h
    · exact requireGroup_reports h
  case isFalse =>
    split at h
    case isTrue =>
      split at h
      · cases h
      · split at h
        · cases List.mem_singleton.1 h
          exact .placed (.new (by decide))
        · exact requireGroup_reports h
    case isFalse => cases h

theorem python_candid : python.Candid := by
  intro ctx
  refine Returns.after fun metadata => ?_
  cases pythonEclasses.find? metadata.inherits with
  | none => exact .pure fun issue => missingEclass_reports
  | some eclass =>
    cases Text.occursIn "PYTHON_REQUIRED_USE" metadata.requiredUse with
    | true => exact .pure nofun
    | false => exact .pure fun issue => eclassIssues_reports

end

theorem advisories_candid : advisories.Candid := by
  intro ctx
  simp only [advisories]
  split
  case h_1 category package text _ =>
    cases Version.parse? text with
    | none => exact .pure nofun
    | some version =>
      refine Returns.after fun metadata => Returns.after fun index => Returns.pure ?_
      intro issue hissue
      obtain ⟨message, -, rfl⟩ := List.mem_map.1 hissue
      exact .new (by decide)
  case h_2 => exact .pure nofun

theorem keywords_candid : keywords.Candid := by
  intro ctx
  simp only [keywords]
  cases ctx.unit.id.packageKey? with
  | none => exact .pure nofun
  | some key =>
    refine Returns.after fun index => ?_
    cases droppedIn (index.versions key) with
    | none => exact .pure nofun
    | some dropped =>
      apply Returns.pure
      intro issue hissue
      cases List.mem_singleton.1 hissue
      exact .new (by decide)

theorem shellSummary_candid : shellSummary.Candid := by
  intro ctx
  apply Returns.pure
  intro issue hissue
  obtain ⟨kind, -, rfl⟩ := List.mem_map.1 hissue
  exact .new (by decide)

theorem categories_candid : categories.Candid := by
  intro ctx
  simp only [categories]
  cases ctx.unit.id with
  | category name =>
    refine Returns.after fun data => ?_
    cases data.categories.contains name with
    | true => exact .pure nofun
    | false =>
      apply Returns.pure
      intro issue hissue
      cases List.mem_singleton.1 hissue
      exact .new (by decide)
  | _ => exact .pure nofun

theorem listed_reports {c : Check} {unit : ScanUnit} {items : List String}
    {make : List String → Issue} {issue : Issue} (h : issue ∈ listed items make)
    (hmake : ∀ items, c.Reports unit (make items)) : c.Reports unit issue := by
  rw [eq_of_mem_listed h]
  exact hmake items

theorem repoProfiles_candid : repoProfiles.Candid := by
  intro ctx
  refine Returns.after fun data => Returns.pure ?_
  intro issue hissue
  simp only [repoProfileIssues, List.append_assoc, List.mem_append] at hissue
  rcases hissue with h | h | h | h | h | h | h
  · exact listed_reports h fun names => .new (by decide)
  · exact listed_reports h fun arches => .new (by decide)
  · obtain ⟨malformed, -, rfl⟩ := List.mem_map.1 h
    exact .placed (.new (by decide))
  · obtain ⟨unknown, -, rfl⟩ := List.mem_map.1 h
    exact .placed (.new (by decide))
  · obtain ⟨missing, -, rfl⟩ := List.mem_map.1 h
    exact .placed (.new (by decide))
  · obtain ⟨lagging, -, hlagging⟩ := List.mem_filterMap.1 h
    obtain ⟨parent, -, rfl⟩ := Option.map_eq_some_iff.1 hlagging
    exact .new (by decide)
  · exact listed_reports h fun dirs => .new (by decide)

section

variable {entry : Profile.ProfileEntry} {package first : String} {arches words : List String}
  {flags : Profile.UseFlags} {index : Package.Index} {fault : String × String}

theorem kind_of_packageKeywordFaults (h : fault ∈ packageKeywordFaults entry package arches words) :
    fault.1 = "UnknownProfilePackageKeywords" := by
  simp only [packageKeywordFaults] at h
  split at h
  · cases h
  · cases List.mem_singleton.1 h
    rfl

theorem kind_of_packageFaults (h : fault ∈ packageFaults entry index arches first words) :
    fault.1 ∈ profiles.knownKinds := by
  simp only [packageFaults] at h
  split at h
  case h_1 => cases h
  case h_2 =>
    split at h
    case isTrue =>
      cases List.mem_singleton.1 h
      exact List.mem_of_elem_eq_true rfl
    case isFalse =>
      split at h
      case h_1 =>
        obtain ⟨unknown, -, rfl⟩ := List.mem_map.1 h
        exact List.mem_of_elem_eq_true rfl
      case h_2 =>
        rw [kind_of_packageKeywordFaults h]
        decide
      case h_3 => cases h
      case h_4 => cases h

theorem kind_of_entryFaults (h : fault ∈ entryFaults entry index flags arches) :
    fault.1 ∈ profiles.knownKinds := by
  simp only [entryFaults] at h
  split at h
  case h_1 => cases h
  case h_2 =>
    split at h
    case isTrue =>
      obtain ⟨unknown, -, rfl⟩ := List.mem_map.1 h
      exact List.mem_cons_self
    case isFalse => exact kind_of_packageFaults h

theorem profiles_candid : profiles.Candid := by
  intro ctx
  refine Returns.after fun data => Returns.after fun flags => Returns.after fun index => ?_
  apply Returns.pure
  intro issue hissue
  rcases List.mem_append.1 hissue with h | h
  · obtain ⟨replacement, -, rfl⟩ := List.mem_map.1 h
    exact .new (by decide)
  · obtain ⟨entry, -, hentry⟩ := List.mem_flatMap.1 h
    obtain ⟨fault, hfault, rfl⟩ := List.mem_map.1 hentry
    exact .placed (.new (kind_of_entryFaults hfault))

end

/-- Nothing is found under another name, about another unit or of an unknown kind. -/
theorem builtin_candid : ∀ c ∈ builtin, c.Candid := by
  simp only [builtin, List.forall_mem_cons]
  exact ⟨shellSyntax_candid, detecting_candid _ _, detecting_candid _ _, detecting_candid _ _,
    dependencies_candid, python_candid, advisories_candid, keywords_candid, shellSummary_candid,
    categories_candid, repoProfiles_candid, profiles_candid, by simp⟩

end Check

end EbuildAudit
