import EbuildAudit.Proofs.Addon.Transparency
import EbuildAudit.Proofs.Check.Modest
import EbuildAudit.Proofs.Scan.Tally

/-!
Checks do not get in each other's way. The report of a unit is made of one part for each check, and
each part can be told from the check, the unit and what the addons come to.
-/

namespace EbuildAudit

def Outcome.isReady : Outcome → Bool
  | .ready _ => true
  | _ => false

/--
One of two checks can stand in for the other if both declare the same addons and ask for no others, as
all checks of the program do (`builtin_modest`), or if it makes no difference to the store what is
asked for before. The latter is so without a cache where each addon asks for those below it only
(`Store.Layered.fixed`), and then also over a cache that holds nothing but what the addons come to, in
a directory that none of them reads (`Opening.steady_store`).
-/
def Check.Exchangeable (store : Store) (c c' : Check) : Prop :=
  store.Steady ∨ (c.requiredAddons = c'.requiredAddons ∧ c.Modest ∧ c'.Modest)

namespace Scan

/-- The part of a report that comes from one check, given what the addons come to. -/
def reportWith (answers : AddonId → Outcome) (ctx : CheckContext) (c : Check) : UnitReport :=
  match c.requiredAddons.findSome? fun addon =>
    skipNotice? c.name ctx.unit addon (answers addon) with
  | some notice => ⟨[notice], []⟩
  | none => ⟨[], segment c.name ctx.unit ((c.run ctx).run.answer (m := Id) answers)⟩

def UnitReport.concat (reports : List UnitReport) : UnitReport :=
  ⟨reports.flatMap (·.notices), reports.flatMap (·.issues)⟩

variable {plan : Plan} {grammar : Grammar} {unit : ScanUnit} {children : List Issue} {count : Nat}
  {store s t : Store} {ctx : CheckContext} {c c' : Check} {checks : List Check}
  {check check' : String} {addons : List AddonId} {answers : AddonId → Outcome}

open Store (Asked)

theorem skipNotice_eq_none {addon : AddonId} {outcome : Outcome} :
    skipNotice? check unit addon outcome = none ↔ outcome.isReady = true := by
  cases outcome <;> simp [skipNotice?, Outcome.isReady]

theorem firstSkip_of_some {addon : AddonId} {notice : Issue}
    (h : skipNotice? check unit addon (Store.outcome addon s).1 = some notice) :
    firstSkip check unit (addon :: addons) s = (some notice, (Store.outcome addon s).2) := by
  rw [firstSkip, bind_apply, h]
  rfl

theorem firstSkip_of_none {addon : AddonId}
    (h : skipNotice? check unit addon (Store.outcome addon s).1 = none) :
    firstSkip check unit (addon :: addons) s =
      firstSkip check unit addons (Store.outcome addon s).2 := by
  rw [firstSkip, bind_apply, h]

theorem asked_firstSkip (check : String) (unit : ScanUnit) (addons : List AddonId) (s : Store) :
    Asked s (firstSkip check unit addons s).2 := by
  induction addons generalizing s with
  | nil => exact .refl
  | cons addon addons ih =>
    cases h : skipNotice? check unit addon (Store.outcome addon s).1 with
    | some notice =>
      rw [firstSkip_of_some h]
      exact Asked.refl.ask addon
    | none =>
      rw [firstSkip_of_none h]
      exact (Asked.refl.ask addon).trans (ih _)

theorem firstSkip_eq (h : Asked (firstSkip check unit addons s).2 t) :
    (firstSkip check unit addons s).1 =
      addons.findSome? fun addon => skipNotice? check unit addon (t.answers addon) := by
  induction addons generalizing s with
  | nil => rfl
  | cons addon addons ih =>
    have hanswer (hasked : Asked (Store.outcome addon s).2 t) :
        t.answers addon = (Store.outcome addon s).1 := by
      rw [Store.answers, Store.outcome_again hasked]
    cases hskip : skipNotice? check unit addon (Store.outcome addon s).1 with
    | some notice =>
      rw [firstSkip_of_some hskip] at h ⊢
      rw [List.findSome?_cons, hanswer h, hskip]
    | none =>
      rw [firstSkip_of_none hskip] at h ⊢
      have hasked := (asked_firstSkip check unit addons _).trans h
      rw [List.findSome?_cons, hanswer hasked, hskip]
      exact ih h

theorem runCheck_of_skip {notice : Issue}
    (h : (firstSkip c.name ctx.unit c.requiredAddons s).1 = some notice) :
    runCheck ctx c s = (⟨[notice], []⟩, (firstSkip c.name ctx.unit c.requiredAddons s).2) := by
  rw [runCheck, bind_apply, h]
  rfl

theorem runCheck_of_ready (h : (firstSkip c.name ctx.unit c.requiredAddons s).1 = none) :
    runCheck ctx c s =
      (⟨[], segment c.name ctx.unit
        (Store.run (c.run ctx).run (firstSkip c.name ctx.unit c.requiredAddons s).2).1⟩,
        (Store.run (c.run ctx).run (firstSkip c.name ctx.unit c.requiredAddons s).2).2) := by
  rw [runCheck, bind_apply, h]
  rfl

theorem asked_runCheck (ctx : CheckContext) (c : Check) (s : Store) :
    Asked s (runCheck ctx c s).2 := by
  have hasked := asked_firstSkip c.name ctx.unit c.requiredAddons s
  cases h : (firstSkip c.name ctx.unit c.requiredAddons s).1 with
  | some notice =>
    rw [runCheck_of_skip h]
    exact hasked
  | none =>
    rw [runCheck_of_ready h]
    exact hasked.trans (Asked.run _ _)

theorem runCheck_eq (h : Asked (runCheck ctx c s).2 t) :
    (runCheck ctx c s).1 = reportWith t.answers ctx c := by
  rw [reportWith]
  cases hskip : (firstSkip c.name ctx.unit c.requiredAddons s).1 with
  | some notice =>
    rw [runCheck_of_skip hskip] at h ⊢
    rw [← firstSkip_eq h, hskip]
  | none =>
    rw [runCheck_of_ready hskip] at h ⊢
    rw [← firstSkip_eq ((Asked.run _ _).trans h), hskip, Store.run_eq _ h]

theorem asked_runChecks (ctx : CheckContext) (checks : List Check) (s : Store) :
    Asked s (runChecks ctx checks s).2 := by
  induction checks generalizing s with
  | nil => exact .refl
  | cons c checks ih => exact (asked_runCheck ctx c s).trans (ih _)

theorem concat_cons (report : UnitReport) (reports : List UnitReport) :
    UnitReport.concat (report :: reports) = report.append (.concat reports) :=
  rfl

theorem runChecks_eq (h : Asked (runChecks ctx checks s).2 t) :
    (runChecks ctx checks s).1 = .concat (checks.map (reportWith t.answers ctx)) := by
  induction checks generalizing s with
  | nil => rfl
  | cons c checks ih =>
    have hasked := (asked_runChecks ctx checks (runCheck ctx c s).2).trans h
    rw [List.map_cons, concat_cons, ← runCheck_eq hasked, ← ih h]
    rfl

theorem metadata_snd (unit : ScanUnit) (s : Store) : (metadata unit s).2 = s := by
  simp only [metadata]
  split <;> rfl

theorem unitReport_of_nil (hchecks : plan.checksFor unit.scope = []) :
    unitReport plan grammar unit children count s = (.empty, s) := by
  simp only [unitReport, hchecks]
  rfl

theorem unitReport_of_readable {found : Option Ebuild.Metadata}
    (hchecks : plan.checksFor unit.scope ≠ []) (hm : (metadata unit s).1 = .ok found) :
    unitReport plan grammar unit children count s =
      runChecks (.new grammar unit found children count) (plan.checksFor unit.scope) s := by
  simp only [unitReport, List.isEmpty_iff]
  rw [if_neg hchecks, bind_apply, hm, metadata_snd]

theorem unitReport_of_unreadable {fault : LoadFault}
    (hchecks : plan.checksFor unit.scope ≠ []) (hm : (metadata unit s).1 = .error fault) :
    unitReport plan grammar unit children count s = (unreadable unit fault.message, s) := by
  simp only [unitReport, List.isEmpty_iff]
  rw [if_neg hchecks, bind_apply, hm, metadata_snd]
  rfl

theorem asked_unitReport (plan : Plan) (grammar : Grammar) (unit : ScanUnit) (children : List Issue)
    (count : Nat) (s : Store) : Asked s (unitReport plan grammar unit children count s).2 := by
  by_cases hchecks : plan.checksFor unit.scope = []
  · rw [unitReport_of_nil hchecks]
    exact .refl
  · cases hm : (metadata unit s).1 with
    | error fault =>
      rw [unitReport_of_unreadable hchecks hm]
      exact .refl
    | ok found =>
      rw [unitReport_of_readable hchecks hm]
      exact asked_runChecks _ _ _

theorem unitReport_eq {found : Option Ebuild.Metadata} (hm : (metadata unit s).1 = .ok found)
    (h : Asked (unitReport plan grammar unit children count s).2 t) :
    (unitReport plan grammar unit children count s).1 =
      .concat ((plan.checksFor unit.scope).map
        (reportWith t.answers (.new grammar unit found children count))) := by
  by_cases hchecks : plan.checksFor unit.scope = []
  · rw [unitReport_of_nil hchecks, hchecks]
    rfl
  · rw [unitReport_of_readable hchecks hm] at h ⊢
    exact runChecks_eq h

theorem unitReport_of_fixed (hfixed : s.Fixed) (ht : Asked s t) :
    (unitReport plan grammar unit children count t).1 =
      (unitReport plan grammar unit children count s).1 := by
  have hm : (metadata unit t).1 = (metadata unit s).1 := by
    simp only [metadata]
    split
    · exact congrArg (Except.map some) (hfixed.load_eq t ht unit.path)
    · rfl
  cases hfound : (metadata unit s).1 with
  | error fault =>
    by_cases hchecks : plan.checksFor unit.scope = []
    · rw [unitReport_of_nil hchecks, unitReport_of_nil hchecks]
    · rw [unitReport_of_unreadable hchecks hfound,
        unitReport_of_unreadable hchecks (hm.trans hfound)]
  | ok found =>
    rw [unitReport_eq hfound .refl, unitReport_eq (hm.trans hfound) .refl,
      hfixed.steady _ (asked_unitReport plan grammar unit children count s),
      hfixed.steady _ (ht.trans (asked_unitReport plan grammar unit children count t))]

theorem reportWith_of_skip {found : List AddonId} {addon : AddonId} {notice : Issue}
    (haddons : c.requiredAddons = found ++ addon :: addons)
    (hready : ∀ a ∈ found, (answers a).isReady = true)
    (hskip : skipNotice? c.name ctx.unit addon (answers addon) = some notice) :
    reportWith answers ctx c = ⟨[notice], []⟩ := by
  have hnone : (found.findSome? fun a => skipNotice? c.name ctx.unit a (answers a)) = none := by
    rw [List.findSome?_eq_none_iff]
    exact fun a ha => skipNotice_eq_none.2 (hready a ha)
  rw [reportWith, haddons, List.findSome?_append, hnone, List.findSome?_cons, hskip]
  rfl

theorem reportWith_of_ready (hready : ∀ a ∈ c.requiredAddons, (answers a).isReady = true) :
    reportWith answers ctx c =
      ⟨[], segment c.name ctx.unit ((c.run ctx).run.answer (m := Id) answers)⟩ := by
  have hnone :
      (c.requiredAddons.findSome? fun a => skipNotice? c.name ctx.unit a (answers a)) = none := by
    rw [List.findSome?_eq_none_iff]
    exact fun a ha => skipNotice_eq_none.2 (hready a ha)
  rw [reportWith, hnone]

theorem run_of_known (q : Query α) (hq : q.AsksOnly addons)
    (hknown : ∀ a ∈ addons, (Store.outcome a s).2 = s) : (Store.run q s).2 = s := by
  induction q with
  | done a => rfl
  | ask addon next ih =>
    obtain ⟨hmem, hnext⟩ := hq
    change (Store.run (next (Store.outcome addon s).1) (Store.outcome addon s).2).2 = s
    rw [hknown addon hmem]
    exact ih _ (hnext _)

theorem known_of_firstSkip (h : (firstSkip check unit addons s).1 = none) :
    ∀ a ∈ addons, (Store.outcome a (firstSkip check unit addons s).2).2 =
      (firstSkip check unit addons s).2 := by
  induction addons generalizing s with
  | nil => simp
  | cons addon addons ih =>
    cases hskip : skipNotice? check unit addon (Store.outcome addon s).1 with
    | some notice =>
      rw [firstSkip_of_some hskip] at h
      cases h
    | none =>
      rw [firstSkip_of_none hskip] at h ⊢
      intro a ha
      rcases List.mem_cons.1 ha with rfl | ha
      · rw [Store.outcome_again (asked_firstSkip check unit addons _)]
      · exact ih h a ha

theorem firstSkip_snd (check check' : String) (unit : ScanUnit) (addons : List AddonId)
    (s : Store) : (firstSkip check unit addons s).2 = (firstSkip check' unit addons s).2 := by
  induction addons generalizing s with
  | nil => rfl
  | cons addon addons ih =>
    cases hskip : skipNotice? check unit addon (Store.outcome addon s).1 with
    | some notice =>
      cases hskip' : skipNotice? check' unit addon (Store.outcome addon s).1 with
      | some notice' => rw [firstSkip_of_some hskip, firstSkip_of_some hskip']
      | none =>
        have hnone : skipNotice? check unit addon (Store.outcome addon s).1 = none :=
          skipNotice_eq_none.2 (skipNotice_eq_none.1 hskip')
        rw [hskip] at hnone
        cases hnone
    | none =>
      have hskip' : skipNotice? check' unit addon (Store.outcome addon s).1 = none :=
        skipNotice_eq_none.2 (skipNotice_eq_none.1 hskip)
      rw [firstSkip_of_none hskip, firstSkip_of_none hskip']
      exact ih _

theorem runCheck_snd (hc : c.Modest) :
    (runCheck ctx c s).2 = (firstSkip c.name ctx.unit c.requiredAddons s).2 := by
  cases hskip : (firstSkip c.name ctx.unit c.requiredAddons s).1 with
  | some notice => rw [runCheck_of_skip hskip]
  | none =>
    rw [runCheck_of_ready hskip]
    exact run_of_known _ (hc ctx) (known_of_firstSkip hskip)

theorem runChecks_append (ctx : CheckContext) (l r : List Check) (s : Store) :
    (runChecks ctx (l ++ r) s).2 = (runChecks ctx r (runChecks ctx l s).2).2 := by
  induction l generalizing s with
  | nil => rfl
  | cons c l ih => exact ih _

/-- Which of two exchangeable checks has run makes no difference to what the store answers. -/
theorem answers_eq_of_exchangeable (plan plan' : Plan) {l r : List Check}
    (hexchange : c.Exchangeable s c') (hl : plan.checksFor unit.scope = l ++ c :: r)
    (hl' : plan'.checksFor unit.scope = l ++ c' :: r) :
    (unitReport plan' grammar unit children count s).2.answers =
      (unitReport plan grammar unit children count s).2.answers := by
  rcases hexchange with hsteady | ⟨haddons, hc, hc'⟩
  · rw [hsteady _ (asked_unitReport plan' _ _ _ _ _), hsteady _ (asked_unitReport plan _ _ _ _ _)]
  · have hne : plan.checksFor unit.scope ≠ [] := by simp [hl]
    have hne' : plan'.checksFor unit.scope ≠ [] := by simp [hl']
    cases hm : (metadata unit s).1 with
    | error fault => rw [unitReport_of_unreadable hne hm, unitReport_of_unreadable hne' hm]
    | ok found =>
      rw [unitReport_of_readable hne hm, unitReport_of_readable hne' hm, hl, hl',
        runChecks_append, runChecks_append]
      change (runChecks _ r (runCheck _ c' _).2).2.answers =
        (runChecks _ r (runCheck _ c _).2).2.answers
      rw [runCheck_snd hc, runCheck_snd hc', haddons, firstSkip_snd c.name c'.name]

def segments (plan : Plan) (grammar : Grammar) (unit : ScanUnit) (found : Option Ebuild.Metadata)
    (children : List Issue) (count : Nat) (store : Store) : List UnitReport :=
  (plan.checksFor unit.scope).map
    (reportWith (unitReport plan grammar unit children count store).2.answers
      (.new grammar unit found children count))

theorem segments_of_exchangeable (plan plan' : Plan) (found : Option Ebuild.Metadata)
    {l r : List Check} (hexchange : c.Exchangeable s c')
    (hl : plan.checksFor unit.scope = l ++ c :: r)
    (hl' : plan'.checksFor unit.scope = l ++ c' :: r) :
    ∃ before segment segment' after, before.length = l.length ∧
      segments plan grammar unit found children count s = before ++ segment :: after ∧
      segments plan' grammar unit found children count s = before ++ segment' :: after := by
  have hanswers : (unitReport plan' grammar unit children count s).2.answers =
      (unitReport plan grammar unit children count s).2.answers :=
    answers_eq_of_exchangeable plan plan' hexchange hl hl'
  let part := reportWith (unitReport plan grammar unit children count s).2.answers
    (.new grammar unit found children count)
  refine ⟨l.map part, part c, part c', r.map part, List.length_map _, ?_, ?_⟩
  · rw [segments, hl, List.map_append, List.map_cons]
  · rw [segments, hl', hanswers, List.map_append, List.map_cons]

/--
A unit's report is made of one segment for each check of its scope, in the order of the plan. A
check that fails adds one issue that says so, one that is kept from running adds one notice, and
what one check does is of no consequence to the segments of the others. A version that cannot be
read has one issue.
-/
theorem checks_isolated (plan : Plan) (grammar : Grammar) (unit : ScanUnit) (children : List Issue)
    (count : Nat) (store : Store) :
    (∀ found, (metadata unit store).1 = .ok found →
      (unitReport plan grammar unit children count store).1 =
          .concat (segments plan grammar unit found children count store) ∧
        ∀ plan' l c c' r, c.Exchangeable store c' → plan.checksFor unit.scope = l ++ c :: r →
          plan'.checksFor unit.scope = l ++ c' :: r →
            ∃ before segment segment' after, before.length = l.length ∧
              segments plan grammar unit found children count store = before ++ segment :: after ∧
              segments plan' grammar unit found children count store =
                before ++ segment' :: after) ∧
    (∀ answers ctx c,
      (∀ ready addon rest, c.requiredAddons = ready ++ addon :: rest →
        (∀ a ∈ ready, (answers a).isReady = true) → (answers addon).isReady = false →
          ∃ notice, skipNotice? c.name ctx.unit addon (answers addon) = some notice ∧
            reportWith answers ctx c = ⟨[notice], []⟩) ∧
      ((∀ a ∈ c.requiredAddons, (answers a).isReady = true) →
        (∀ issues, (c.run ctx).run.answer (m := Id) answers = .ok issues →
          reportWith answers ctx c = ⟨[], issues⟩) ∧
        ∀ fault, (c.run ctx).run.answer (m := Id) answers = .error fault →
          reportWith answers ctx c =
            ⟨[], [.new c.name "InternalError" ctx.unit .error (faultText fault)]⟩)) ∧
    ∀ fault, unit.scope = .version → plan.checksFor .version ≠ [] →
      store.load store.files unit.path = .error fault →
        (unitReport plan grammar unit children count store).1 =
          ⟨[], [.new "scanner" "UnreadableUnit" unit .error ("unreadable: " ++ fault.message)]⟩ := by
  refine ⟨fun found hm => ⟨unitReport_eq hm .refl, fun plan' l c c' r hexchange hl hl' =>
    segments_of_exchangeable plan plan' found hexchange hl hl'⟩, fun answers ctx c => ⟨?_, ?_⟩, ?_⟩
  · intro ready addon rest haddons hready hnot
    cases hskip : skipNotice? c.name ctx.unit addon (answers addon) with
    | none =>
      rw [skipNotice_eq_none.1 hskip] at hnot
      cases hnot
    | some notice => exact ⟨notice, rfl, reportWith_of_skip haddons hready hskip⟩
  · intro hready
    rw [reportWith_of_ready hready]
    constructor
    · intro issues hrun
      rw [hrun]
      rfl
    · intro fault hrun
      rw [hrun]
      rfl
  · intro fault hscope hchecks hload
    have hm : (metadata unit store).1 = .error fault := by
      simp only [metadata, hscope]
      change (store.load store.files unit.path).map some = _
      rw [hload]
      rfl
    rw [unitReport_of_unreadable (hscope ▸ hchecks) hm]
    rfl

def crashing : Check where
  name := "Crashing"
  category := "tally"
  scope := .version
  knownKinds := []
  run _ := throw (.crashed .other)

def curious : Check where
  name := "Curious"
  category := "tally"
  scope := .package
  knownKinds := []
  run _ := do
    let _ ← needAddon some "a"
    return []

theorem checks_isolated_crashing :
    let version : ScanUnit := ⟨.version "a" "p" "1", "a/p/p-1.ebuild", 0⟩
    let package : ScanUnit := ⟨.package "a" "p", "a/p", 0⟩
    let cachedStore := (Sample.opening 1).store Sample.checkedOut (some Sample.cache)
    ((unitReport ⟨[crashing, sighting], []⟩ unread version [] 0 bareStore).1 =
        ⟨[], [.new "Crashing" "InternalError" version .error "check panicked: panic",
          seen version]⟩ ∧
      ∃ before segment segment' after, before.length = 0 ∧
        segments ⟨[crashing, sighting], []⟩ unread version (some blank) [] 0 bareStore =
          before ++ segment :: after ∧
        segments ⟨[Check.shellSyntax, sighting], []⟩ unread version (some blank) [] 0 bareStore =
          before ++ segment' :: after) ∧
    ∃ before segment segment' after, before.length = 0 ∧
      segments ⟨[curious, Check.keywords], []⟩ unread package none [] 0 cachedStore =
        before ++ segment :: after ∧
      segments ⟨[Check.shellSummary, Check.keywords], []⟩ unread package none [] 0 cachedStore =
        before ++ segment' :: after := by
  intro version package cachedStore
  have hmodest : crashing.Exchangeable bareStore Check.shellSyntax :=
    .inr ⟨rfl, fun _ => trivial, Check.builtin_modest _ List.mem_cons_self⟩
  have hsteady : curious.Exchangeable cachedStore Check.shellSummary := .inl Sample.steady_store
  obtain ⟨hreadable, -⟩ :=
    checks_isolated ⟨[crashing, sighting], []⟩ unread version [] 0 bareStore
  obtain ⟨hreport, hisolated⟩ := hreadable (some blank) rfl
  obtain ⟨hnoMetadata, -⟩ :=
    checks_isolated ⟨[curious, Check.keywords], []⟩ unread package [] 0 cachedStore
  obtain ⟨-, hcached⟩ := hnoMetadata none rfl
  refine ⟨⟨hreport, ?_⟩, ?_⟩
  · exact hisolated ⟨[Check.shellSyntax, sighting], []⟩ [] crashing Check.shellSyntax [sighting]
      hmodest rfl rfl
  · exact hcached ⟨[Check.shellSummary, Check.keywords], []⟩ [] curious Check.shellSummary
      [Check.keywords] hsteady rfl rfl

end Scan

end EbuildAudit
