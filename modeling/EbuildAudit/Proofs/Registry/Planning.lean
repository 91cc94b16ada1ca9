import EbuildAudit.Proofs.Registry.Validation

namespace EbuildAudit

def Plan.required (p : Plan) : List AddonId :=
  p.checks.flatMap (·.requiredAddons)

namespace Registry

variable {r : Registry} {s : Selection} {p : Plan} {token : String} {e : PlanError} {c : Check}

theorem plan_of_token (h : r.unknownToken? s = some token) :
    r.plan s = .error (.unknownCheck token) := by
  simp only [plan, h]

theorem plan_of_inactive (htoken : r.unknownToken? s = none)
    (h : r.checks.any s.includes = false) : r.plan s = .error .noActiveChecks := by
  simp only [plan, htoken, h]
  rfl

theorem plan_of_active (htoken : r.unknownToken? s = none)
    (h : r.checks.any s.includes = true) :
    r.plan s = (r.addonOrder ((r.plannedChecks s).flatMap (·.requiredAddons))).map
      fun order => ⟨r.plannedChecks s, order⟩ := by
  simp only [plan, htoken, h]
  cases r.addonOrder ((r.plannedChecks s).flatMap (·.requiredAddons)) <;> rfl

theorem plan_eq_ok_iff : r.plan s = .ok p ↔
    (r.unknownToken? s = none ∧ r.checks.any s.includes = true) ∧
      p.checks = r.plannedChecks s ∧ r.addonOrder p.required = .ok p.addons := by
  cases htoken : r.unknownToken? s with
  | some token => simp [plan_of_token htoken]
  | none =>
    cases hactive : r.checks.any s.includes with
    | false => simp [plan_of_inactive htoken hactive]
    | true =>
      rw [plan_of_active htoken hactive]
      constructor
      · intro h
        cases horder : r.addonOrder ((r.plannedChecks s).flatMap (·.requiredAddons)) with
        | error e =>
          rw [horder] at h
          cases h
        | ok order =>
          rw [horder] at h
          cases h
          exact ⟨⟨rfl, rfl⟩, rfl, horder⟩
      · rintro ⟨-, hchecks, horder⟩
        rw [Plan.required, hchecks] at horder
        rw [horder]
        cases p
        cases hchecks
        rfl

theorem exists_plan (hr : r.Acyclic) (htoken : r.unknownToken? s = none)
    (hactive : r.checks.any s.includes = true) : ∃ p, r.plan s = .ok p := by
  obtain ⟨order, horder⟩ := exists_addonOrder hr ((r.plannedChecks s).flatMap (·.requiredAddons))
  exact ⟨⟨r.plannedChecks s, order⟩, plan_eq_ok_iff.2 ⟨⟨htoken, hactive⟩, rfl, horder⟩⟩

theorem error_of_plan (hr : r.Acyclic) (h : r.plan s = .error e) :
    (∃ token, r.unknownToken? s = some token ∧ e = .unknownCheck token) ∨
      r.checks.any s.includes = false ∧ e = .noActiveChecks := by
  cases htoken : r.unknownToken? s with
  | some token =>
    rw [plan_of_token htoken] at h
    cases h
    exact .inl ⟨token, rfl, rfl⟩
  | none =>
    cases hactive : r.checks.any s.includes with
    | false =>
      rw [plan_of_inactive htoken hactive] at h
      cases h
      exact .inr ⟨rfl, rfl⟩
    | true =>
      obtain ⟨p, hp⟩ := exists_plan hr htoken hactive
      rw [hp] at h
      cases h

theorem plan_eq_error_iff (hr : r.Acyclic) : (∃ e, r.plan s = .error e) ↔
    (∃ token ∈ s.enabled ++ s.disabled, ∀ c ∈ r.checks, c.answersTo token = false) ∨
      ∀ c ∈ r.checks, s.includes c = false := by
  have htoken : r.unknownToken? s = none ↔
      ¬∃ token ∈ s.enabled ++ s.disabled, ∀ c ∈ r.checks, c.answersTo token = false := by
    simp [unknownToken?, List.find?_eq_none, or_imp, forall_and]
  have hactive : r.checks.any s.includes = true ↔ ¬∀ c ∈ r.checks, s.includes c = false := by
    simp
  constructor
  · rintro ⟨e, he⟩
    by_contra hnot
    obtain ⟨hnot, hnot'⟩ := not_or.1 hnot
    obtain ⟨p, hp⟩ := exists_plan hr (htoken.2 hnot) (hactive.2 hnot')
    rw [hp] at he
    cases he
  · intro h
    cases hplan : r.plan s with
    | error e => exact ⟨e, rfl⟩
    | ok p =>
      obtain ⟨⟨hknown, hsome⟩, -⟩ := plan_eq_ok_iff.1 hplan
      exact (h.elim (htoken.1 hknown) (hactive.1 hsome)).elim

theorem mem_plannedChecks : c ∈ r.plannedChecks s ↔ c ∈ r.checks ∧
    (s.includes c = true ∨ c.reportsParseFailures = true ∧
      ∃ c' ∈ r.checks, s.includes c' = true ∧ c'.parsesScript = true) := by
  simp only [plannedChecks, List.mem_filter, Bool.or_eq_true, Bool.and_eq_true, List.any_eq_true]
  tauto

theorem plannedChecks_sublist (r : Registry) (s : Selection) :
    (r.plannedChecks s).Sublist r.checks :=
  List.filter_sublist

theorem includes_iff : s.includes c = true ↔
    (s.enabled = [] ∨ ∃ token ∈ s.enabled, c.answersTo token = true) ∧
      ∀ token ∈ s.disabled, c.answersTo token = false := by
  simp [Selection.includes]

end Registry

end EbuildAudit
