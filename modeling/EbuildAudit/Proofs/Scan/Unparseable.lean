import EbuildAudit.Proofs.Check.Candid
import EbuildAudit.Proofs.Registry.Planning
import EbuildAudit.Proofs.Scan.Isolation

namespace EbuildAudit

namespace Check

def unparseable (unit : ScanUnit) (failure : Shell.ParseFailure) : Issue :=
  (Issue.new "ShellSyntaxCheck" "UnparseableScript" unit .error
    ("unparseable script: " ++ failure.message)).placed failure.line failure.column

variable {c : Check}

theorem eq_shellSyntax_of_kind (hc : c ∈ builtin) (h : "UnparseableScript" ∈ c.knownKinds) :
    c = shellSyntax := by
  simp only [builtin, List.mem_cons, List.not_mem_nil, or_false] at hc
  rcases hc with rfl | rfl | rfl | rfl | rfl | rfl | rfl | rfl | rfl | rfl | rfl | rfl
  · rfl
  all_goals exact absurd h (by decide)

theorem exists_detecting_of_kind {d : Shell.Detector} (hc : c ∈ builtin)
    (h : d.kind ∈ c.knownKinds) : ∃ name detectors, c = detecting name detectors := by
  simp only [builtin, List.mem_cons, List.not_mem_nil, or_false] at hc
  rcases hc with rfl | rfl | rfl | rfl | rfl | rfl | rfl | rfl | rfl | rfl | rfl | rfl
  case inr.inl | inr.inr.inl | inr.inr.inr.inl => exact ⟨_, _, rfl⟩
  all_goals cases d <;> exact absurd h (by decide)

end Check

namespace Scan

def UnitReport.all (report : UnitReport) : List Issue :=
  report.notices ++ report.issues

variable {answers : AddonId → Outcome} {ctx : CheckContext} {c : Check} {issue : Issue}
  {unit : ScanUnit} {grammar : Grammar} {m : Ebuild.Metadata} {children : List Issue} {count : Nat}
  {failure : Shell.ParseFailure}

theorem kind_of_skipNotice? {check : String} {addon : AddonId} {outcome : Outcome}
    (h : skipNotice? check unit addon outcome = some issue) :
    issue.kind = "InternalError" ∨ issue.kind = "SkippedCheck" := by
  cases outcome with
  | ready value => cases h
  | failed reason =>
    cases h
    exact .inl rfl
  | disabled reason =>
    cases h
    exact .inr rfl

theorem kind_of_reportWith (hc : c.Candid) (h : issue ∈ (reportWith answers ctx c).all) :
    issue.kind ∈ c.knownKinds ∨ issue.kind = "InternalError" ∨ issue.kind = "SkippedCheck" := by
  rw [reportWith] at h
  split at h
  case h_1 notice hnotice =>
    obtain ⟨addon, -, haddon⟩ := List.exists_of_findSome?_eq_some hnotice
    cases List.mem_singleton.1 h
    exact .inr (kind_of_skipNotice? haddon)
  case h_2 =>
    have h : issue ∈ segment c.name ctx.unit ((c.run ctx).run.answer (m := Id) answers) := h
    cases hrun : (c.run ctx).run.answer (m := Id) answers with
    | ok issues =>
      rw [hrun] at h
      exact .inl (hc ctx answers issues hrun issue h).kind
    | error fault =>
      rw [hrun] at h
      cases List.mem_singleton.1 h
      exact .inr (.inl rfl)

theorem needMetadata_new : (CheckContext.new grammar unit (some m) children count).needMetadata =
    pure m :=
  rfl

theorem needScript_new : (CheckContext.new grammar unit (some m) children count).needScript =
    pure (grammar m.script) :=
  rfl

theorem reportWith_of_pure {issues : List Issue} (haddons : c.requiredAddons = [])
    (h : c.run ctx = pure issues) : reportWith answers ctx c = ⟨[], issues⟩ := by
  rw [reportWith_of_ready (by simp [haddons]), h]
  rfl

theorem reportWith_shellSyntax_of_error (h : grammar m.script = .error failure) :
    reportWith answers (.new grammar unit (some m) children count) Check.shellSyntax =
      ⟨[], [Check.unparseable unit failure]⟩ := by
  apply reportWith_of_pure rfl
  simp only [Check.shellSyntax]
  rw [needScript_new, h]
  rfl

theorem reportWith_shellSyntax_of_ok {tree : Shell.Tree} (h : grammar m.script = .ok tree) :
    reportWith answers (.new grammar unit (some m) children count) Check.shellSyntax =
      ⟨[], []⟩ := by
  apply reportWith_of_pure rfl
  simp only [Check.shellSyntax]
  rw [needScript_new, h]
  rfl

theorem reportWith_detecting (name : String) (detectors : List Shell.Detector)
    (h : grammar m.script = .error failure) :
    reportWith answers (.new grammar unit (some m) children count)
      (Check.detecting name detectors) = ⟨[], []⟩ := by
  apply reportWith_of_pure rfl
  simp only [Check.detecting]
  rw [needMetadata_new, needScript_new, h]
  rfl

theorem filter_all_concat {f : Issue → Bool} {l r : List UnitReport} {report : UnitReport}
    (h : ∀ other ∈ l ++ r, other.all.filter f = []) :
    (UnitReport.concat (l ++ report :: r)).all.filter f = report.all.filter f := by
  have hparts (part : UnitReport → List Issue) (hpart : ∀ x issue, issue ∈ part x → issue ∈ x.all) :
      (l ++ r).flatMap (fun x => (part x).filter f) = [] := by
    rw [List.flatMap_eq_nil_iff]
    intro x hx
    rw [List.filter_eq_nil_iff]
    intro issue hissue
    exact List.filter_eq_nil_iff.1 (h x hx) issue (hpart x issue hissue)
  have hnotices := hparts (·.notices) fun x issue => List.mem_append_left _
  have hissues := hparts (·.issues) fun x issue => List.mem_append_right _
  rw [List.flatMap_append, List.append_eq_nil_iff] at hnotices hissues
  simp only [UnitReport.all, UnitReport.concat, List.filter_append, List.filter_flatMap,
    List.flatMap_append, List.flatMap_cons, hnotices, hissues, List.nil_append, List.append_nil]

theorem mem_all_concat {reports : List UnitReport} :
    issue ∈ (UnitReport.concat reports).all ↔ ∃ report ∈ reports, issue ∈ report.all := by
  simp only [UnitReport.all, UnitReport.concat, List.mem_append, List.mem_flatMap]
  constructor
  · rintro (⟨report, hreport, h⟩ | ⟨report, hreport, h⟩)
    · exact ⟨report, hreport, .inl h⟩
    · exact ⟨report, hreport, .inr h⟩
  · rintro ⟨report, hreport, h | h⟩
    · exact .inl ⟨report, hreport, h⟩
    · exact .inr ⟨report, hreport, h⟩

theorem kind_ne_unparseable (hc : c ∈ Check.builtin) (hne : c ≠ Check.shellSyntax)
    (h : issue ∈ (reportWith answers ctx c).all) : issue.kind ≠ "UnparseableScript" := by
  intro hkind
  rcases kind_of_reportWith (Check.builtin_candid c hc) h with hknown | hother
  · exact hne (Check.eq_shellSyntax_of_kind hc (hkind ▸ hknown))
  · rw [hkind] at hother
    exact absurd hother (by decide)

theorem shellSyntax_planned {r : Registry} {s : Selection} (hchecks : r.checks = Check.builtin)
    (hc : c ∈ r.plannedChecks s) (hparses : c.parsesScript = true) :
    Check.shellSyntax ∈ r.plannedChecks s := by
  have hmem : Check.shellSyntax ∈ r.checks := by rw [hchecks, Check.builtin]; simp
  rw [Registry.mem_plannedChecks] at hc ⊢
  refine ⟨hmem, .inr ⟨rfl, ?_⟩⟩
  rcases hc with ⟨hc, hincludes | ⟨-, hother⟩⟩
  · exact ⟨c, hc, hincludes, hparses⟩
  · exact hother

section

variable {plan : Plan} {store : Store}

theorem metadata_of_load (hunit : unit.scope = .version)
    (hload : store.load store.files unit.path = .ok m) :
    (metadata unit store).1 = .ok (some m) := by
  simp only [metadata, if_pos hunit]
  change (store.load store.files unit.path).map some = _
  rw [hload]
  rfl

theorem exists_others (hnames : (plan.checks.map (·.name)).Nodup) (hc : c ∈ plan.checks) :
    ∃ l r, plan.checksFor c.scope = l ++ c :: r ∧
      ∀ other ∈ l ++ r, other ∈ plan.checks ∧ other.name ≠ c.name := by
  have hsub : (plan.checksFor c.scope).Sublist plan.checks := List.filter_sublist
  have hmem : c ∈ plan.checksFor c.scope := List.mem_filter.2 ⟨hc, by simp⟩
  obtain ⟨l, r, hlr⟩ := List.append_of_mem hmem
  have hnodup : ((l ++ c :: r).map (·.name)).Nodup := by
    rw [← hlr]
    exact (hsub.map _).nodup hnames
  rw [List.map_append, List.map_cons, List.perm_middle.nodup_iff, List.nodup_cons,
    ← List.map_append] at hnodup
  refine ⟨l, r, hlr, fun other hother => ⟨hsub.subset ?_, fun heq => hnodup.1 ?_⟩⟩
  · rw [hlr]
    exact List.mem_append.2 ((List.mem_append.1 hother).imp_right (List.mem_cons_of_mem _))
  · rw [← heq]
    exact List.mem_map_of_mem hother

theorem exists_checksFor (hchecks : plan.checks.Sublist Check.builtin)
    (hplanned : Check.shellSyntax ∈ plan.checks) :
    ∃ l r, plan.checksFor .version = l ++ Check.shellSyntax :: r ∧
      ∀ c ∈ l ++ r, c ∈ Check.builtin ∧ c ≠ Check.shellSyntax := by
  have hnames : (plan.checks.map (·.name)).Nodup := (hchecks.map _).nodup (by decide)
  obtain ⟨l, r, hlr, hothers⟩ := exists_others hnames hplanned
  refine ⟨l, r, hlr, fun c hc => ?_⟩
  obtain ⟨hmem, hne⟩ := hothers c hc
  exact ⟨hchecks.subset hmem, fun heq => hne (congrArg Check.name heq)⟩

theorem unparseable_of_error (hchecks : plan.checks.Sublist Check.builtin)
    (hplanned : Check.shellSyntax ∈ plan.checks) (hunit : unit.scope = .version)
    (hload : store.load store.files unit.path = .ok m) (h : grammar m.script = .error failure) :
    (unitReport plan grammar unit children count store).1.all.filter
        (·.kind == "UnparseableScript") = [Check.unparseable unit failure] := by
  obtain ⟨l, r, hlr, hothers⟩ := exists_checksFor hchecks hplanned
  rw [unitReport_eq (metadata_of_load hunit hload) .refl, hunit, hlr, List.map_append,
    List.map_cons, filter_all_concat, reportWith_shellSyntax_of_error h]
  · rfl
  · intro report hreport
    rw [← List.map_append] at hreport
    obtain ⟨c, hc, rfl⟩ := List.mem_map.1 hreport
    rw [List.filter_eq_nil_iff]
    intro issue hissue
    simpa using kind_ne_unparseable (hothers c hc).1 (hothers c hc).2 hissue

theorem quiet_of_error (hchecks : plan.checks.Sublist Check.builtin) (hunit : unit.scope = .version)
    (hload : store.load store.files unit.path = .ok m) (h : grammar m.script = .error failure)
    (hissue : issue ∈ (unitReport plan grammar unit children count store).1.all)
    (d : Shell.Detector) : issue.kind ≠ d.kind := by
  intro hkind
  rw [unitReport_eq (metadata_of_load hunit hload) .refl] at hissue
  obtain ⟨report, hreport, hissue⟩ := mem_all_concat.1 hissue
  obtain ⟨c, hc, rfl⟩ := List.mem_map.1 hreport
  have hbuiltin : c ∈ Check.builtin := hchecks.subset (List.mem_of_mem_filter hc)
  rcases kind_of_reportWith (Check.builtin_candid c hbuiltin) hissue with hknown | hother
  · rw [hkind] at hknown
    obtain ⟨name, detectors, rfl⟩ := Check.exists_detecting_of_kind hbuiltin hknown
    rw [reportWith_detecting name detectors h] at hissue
    cases hissue
  · rw [hkind] at hother
    cases d <;> exact absurd hother (by decide)

theorem kind_ne_of_ok {tree : Shell.Tree} (hchecks : plan.checks.Sublist Check.builtin)
    (hunit : unit.scope = .version) (hload : store.load store.files unit.path = .ok m)
    (h : grammar m.script = .ok tree)
    (hissue : issue ∈ (unitReport plan grammar unit children count store).1.all) :
    issue.kind ≠ "UnparseableScript" := by
  rw [unitReport_eq (metadata_of_load hunit hload) .refl] at hissue
  obtain ⟨report, hreport, hissue⟩ := mem_all_concat.1 hissue
  obtain ⟨c, hc, rfl⟩ := List.mem_map.1 hreport
  have hbuiltin : c ∈ Check.builtin := hchecks.subset (List.mem_of_mem_filter hc)
  intro hkind
  by_cases heq : c = Check.shellSyntax
  · subst heq
    rw [reportWith_shellSyntax_of_ok h] at hissue
    cases hissue
  · exact kind_ne_unparseable hbuiltin heq hissue hkind

end

/--
What is planned are the selected checks in the order of the registry, and with one that looks at
scripts those that report unreadable ones. So of the built-in checks, if one that looks at scripts
is planned, a script that cannot be read is told of just once and looked into by none.
-/
theorem unparseable_told (checks : List Check) (addons : List Addon) (r : Registry)
    (hr : Registry.new checks addons = .ok r) (s : Selection) :
    let chosen (c : Check) : Prop :=
      (s.enabled = [] ∨ ∃ token ∈ s.enabled, c.answersTo token = true) ∧
        ∀ token ∈ s.disabled, c.answersTo token = false
    ((∃ e, r.plan s = .error e) ↔
      (∃ token ∈ s.enabled ++ s.disabled, ∀ c ∈ checks, c.answersTo token = false) ∨
        ∀ c ∈ checks, ¬chosen c) ∧
    ∀ p, r.plan s = .ok p →
      p.checks.Sublist checks ∧ (p.checks.map (·.name)).Nodup ∧
      (∀ c, c ∈ p.checks ↔ c ∈ checks ∧ (chosen c ∨ c.reportsParseFailures = true ∧
        ∃ c' ∈ checks, chosen c' ∧ c'.parsesScript = true)) ∧
      (checks = Check.builtin → (∃ c ∈ p.checks, c.parsesScript = true) →
        ∀ grammar unit children count store m, unit.scope = .version →
          store.load store.files unit.path = .ok m →
          let report := (unitReport p grammar unit children count store).1
          (∀ failure, grammar m.script = .error failure →
            report.all.filter (·.kind == "UnparseableScript") =
                [Check.unparseable unit failure] ∧
              ∀ issue ∈ report.all, ∀ d : Shell.Detector, issue.kind ≠ d.kind) ∧
          ∀ tree, grammar m.script = .ok tree →
            ∀ issue ∈ report.all, issue.kind ≠ "UnparseableScript") := by
  intro chosen
  obtain ⟨hr, hvalid⟩ := Registry.new_eq_ok_iff.1 hr
  have hchecks : r.checks = checks := by rw [hr]
  have hchosen (c : Check) : s.includes c = true ↔ chosen c := Registry.includes_iff
  have hnot (c : Check) : s.includes c = false ↔ ¬chosen c := by
    rw [← hchosen, Bool.not_eq_true]
  constructor
  · rw [Registry.plan_eq_error_iff hvalid.acyclic, hchecks]
    simp only [hnot]
  intro p hp
  have hplanned := (Registry.plan_eq_ok_iff.1 hp).2.1
  have hsub : p.checks.Sublist checks := by
    rw [hplanned, ← hchecks]
    exact Registry.plannedChecks_sublist r s
  refine ⟨hsub, (hsub.map _).nodup (hchecks ▸ hvalid.names), fun c => ?_, ?_⟩
  · rw [hplanned, Registry.mem_plannedChecks, hchecks]
    simp only [hchosen]
  · rintro rfl ⟨c, hc, hparses⟩ grammar unit children count store m hunit hload
    have htells : Check.shellSyntax ∈ p.checks := by
      rw [hplanned] at hc ⊢
      exact shellSyntax_planned hchecks hc hparses
    refine ⟨fun failure h => ⟨?_, fun issue hissue => ?_⟩, fun tree h issue hissue => ?_⟩
    · exact unparseable_of_error hsub htells hunit hload h
    · exact quiet_of_error hsub hunit hload h hissue
    · exact kind_ne_of_ok hsub hunit hload h hissue

theorem unparseable_told_disabled :
    let s : Selection := ⟨["GlobCheck"], ["UnparseableScript"]⟩
    let p : Plan := ⟨[Check.shellSyntax, Check.globs], []⟩
    let version : ScanUnit := ⟨.version "a" "p" "1", "a/p/p-1.ebuild", 0⟩
    Registry.builtin = .ok ⟨Check.builtin, Addon.byId Addon.builtin⟩ ∧
      Registry.plan ⟨Check.builtin, Addon.byId Addon.builtin⟩ s = .ok p ∧
      (unitReport p unread version [] 0 bareStore).1.all.filter
        (·.kind == "UnparseableScript") = [Check.unparseable version ⟨"unread", 1, 1⟩] := by
  intro s p version
  have hplan : Registry.plan ⟨Check.builtin, Addon.byId Addon.builtin⟩ s = .ok p :=
    Registry.plan_eq_ok_iff.2 ⟨⟨by decide, by decide⟩, rfl, by cbv⟩
  obtain ⟨-, hplanned⟩ :=
    unparseable_told Check.builtin Addon.builtin _ Registry.builtin_eq s
  obtain ⟨-, -, -, hreport⟩ := hplanned p hplan
  have hparses : ∃ c ∈ p.checks, c.parsesScript = true :=
    ⟨Check.globs, List.mem_cons_of_mem _ List.mem_cons_self, rfl⟩
  obtain ⟨htold, -⟩ := hreport rfl hparses unread version [] 0 bareStore blank rfl rfl
  exact ⟨Registry.builtin_eq, hplan, (htold _ rfl).1⟩

end Scan

end EbuildAudit
