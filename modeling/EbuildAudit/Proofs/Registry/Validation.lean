import EbuildAudit.Proofs.Ascending
import EbuildAudit.Proofs.Basic
import EbuildAudit.Proofs.Registry.Walk

namespace EbuildAudit

namespace Addon

def last? (addons : List Addon) (id : AddonId) : Option Addon :=
  addons.reverse.find? (·.id == id)

def Declares (addons : List Addon) (id dependency : AddonId) : Prop :=
  ∃ addon, last? addons id = some addon ∧ dependency ∈ addon.dependsOn

variable {addons : List Addon} {addon : Addon} {id : AddonId}

theorem id_of_last? (h : last? addons id = some addon) : addon.id = id := by
  simpa using List.find?_some h

theorem mem_of_last? (h : last? addons id = some addon) : addon ∈ addons :=
  List.mem_reverse.1 (List.mem_of_find?_eq_some h)

theorem last?_ne_none : last? addons id ≠ none ↔ ∃ addon ∈ addons, addon.id = id := by
  simp [last?]

theorem byId_concat (addons : List Addon) (addon : Addon) :
    byId (addons ++ [addon]) = Ascending.set addon.id addon (byId addons) := by
  simp [byId]

theorem lookup_byId (addons : List Addon) (id : AddonId) :
    (byId addons).lookup id = last? addons id := by
  induction addons using List.reverseRecOn with
  | nil => rfl
  | append_singleton addons addon ih =>
    rw [byId_concat, Ascending.lookup_set, ih, last?, last?, List.reverse_concat, List.find?_cons]
    by_cases h : id = addon.id
    · simp [h]
    · rw [if_neg h, beq_false_of_ne (Ne.symm h)]

theorem byId_sorted (addons : List Addon) : Ascending.Sorted (byId addons) := by
  induction addons using List.reverseRecOn with
  | nil => exact .nil
  | append_singleton addons addon ih =>
    rw [byId_concat]
    exact Ascending.modify_sorted ih

def constant (id : AddonId) (dependsOn : List AddonId) (n : Int) : Addon where
  id
  dependsOn
  persistVersion := none
  compute _ := .done (.ok (.number n))
  encode _ := none
  decode _ := none

theorem mem_byId : (id, addon) ∈ byId addons ↔ last? addons id = some addon := by
  rw [← lookup_byId]
  exact ⟨lookup_of_mem (byId_sorted addons).nodup, mem_of_lookup⟩

end Addon

namespace Registry

/-- What the checks and addons of a registry are like. -/
structure Valid (r : Registry) : Prop where
  names : (r.checks.map (·.name)).Nodup
  requirements : ∀ c ∈ r.checks, ∀ id ∈ c.requiredAddons, r.knows id
  dependencies : ∀ id addon, (id, addon) ∈ r.addons → ∀ d ∈ addon.dependsOn, r.knows d
  acyclic : r.Acyclic

variable {r : Registry} {checks : List Check} {addons : List Addon} {names : List String}
  {path : List AddonId} {id d : AddonId} {e : PlanError}

theorem knows_iff : r.knows id ↔ id ∈ r.addons.map (·.1) := by
  simp [knows]

theorem knows_of_lookup (h : r.addons.lookup id ≠ none) : r.knows id := by
  rw [knows_iff]
  obtain ⟨addon, h⟩ := Option.ne_none_iff_exists'.1 h
  exact List.mem_map_of_mem (mem_of_lookup h)

theorem badCheck?_eq_none_iff : r.badCheck? names checks = none ↔
    (checks.map (·.name)).Nodup ∧ (∀ c ∈ checks, c.name ∉ names) ∧
      ∀ c ∈ checks, ∀ id ∈ c.requiredAddons, r.knows id := by
  induction checks generalizing names with
  | nil => simp [badCheck?]
  | cons c checks ih =>
    rw [badCheck?, List.map_cons, List.nodup_cons, List.forall_mem_cons, List.forall_mem_cons]
    split
    case isTrue hname =>
      have hname : c.name ∈ names := by simpa using hname
      simp [hname]
    case isFalse hname =>
      have hname : c.name ∉ names := by simpa using hname
      split
      case h_1 missing hmissing =>
        have hmem := List.mem_of_find?_eq_some hmissing
        have hunknown : r.knows missing = false := by simpa using List.find?_some hmissing
        have hnot : ¬∀ id ∈ c.requiredAddons, r.knows id := fun h => by
          rw [h missing hmem] at hunknown
          cases hunknown
        simp [hnot]
      case h_2 hknown =>
        have hknown : ∀ id ∈ c.requiredAddons, r.knows id := by
          simpa [List.find?_eq_none] using hknown
        rw [ih]
        constructor
        · rintro ⟨hnodup, hnew, hrest⟩
          refine ⟨⟨fun hmem => ?_, hnodup⟩, ⟨hname, fun c' hc' => ?_⟩, hknown, hrest⟩
          · obtain ⟨c', hc', heq⟩ := List.mem_map.1 hmem
            exact hnew c' hc' (heq ▸ List.mem_cons_self)
          · exact fun hmem => hnew c' hc' (List.mem_cons_of_mem _ hmem)
        · rintro ⟨⟨hnew, hnodup⟩, ⟨-, hnames⟩, -, hrest⟩
          refine ⟨hnodup, fun c' hc' hmem => ?_, hrest⟩
          rcases List.mem_cons.1 hmem with heq | hmem
          · exact hnew (List.mem_map.2 ⟨c', hc', heq⟩)
          · exact hnames c' hc' hmem

theorem badAddon?_eq_none_iff : r.badAddon? = none ↔
    ∀ id addon, (id, addon) ∈ r.addons → ∀ d ∈ addon.dependsOn, r.knows d := by
  simp [badAddon?, List.findSome?_eq_none_iff]

theorem badCheck?_ne_addonCycle : r.badCheck? names checks ≠ some (.addonCycle path) := by
  induction checks generalizing names with
  | nil => simp [badCheck?]
  | cons c checks ih =>
    rw [badCheck?]
    split
    case isTrue => simp
    case isFalse =>
      split
      case h_1 => simp
      case h_2 => exact ih

theorem badAddon?_ne_addonCycle : r.badAddon? ≠ some (.addonCycle path) := by
  intro h
  obtain ⟨entry, -, hentry⟩ := List.exists_of_findSome?_eq_some h
  simp at hentry

theorem acyclic_iff_exists_addonOrder :
    r.Acyclic ↔ ∃ order, r.addonOrder (r.addons.map (·.1)) = .ok order := by
  constructor
  · exact fun h => exists_addonOrder h _
  · rintro ⟨order, horder⟩
    apply (addonOrder_ordered horder).acyclic
    intro id hid
    exact (addonOrder_extends horder).adds (knows_iff.1 (knows_of_lookup hid))

theorem new_of_bad (h : (badCheck? ⟨checks, Addon.byId addons⟩ [] checks).or
    (badAddon? ⟨checks, Addon.byId addons⟩) = some e) : new checks addons = .error e := by
  simp only [new, h]

theorem new_of_not_bad (h : (badCheck? ⟨checks, Addon.byId addons⟩ [] checks).or
    (badAddon? ⟨checks, Addon.byId addons⟩) = none) : new checks addons =
      (addonOrder ⟨checks, Addon.byId addons⟩ ((Addon.byId addons).map (·.1))).map
        fun _ => ⟨checks, Addon.byId addons⟩ := by
  simp only [new, h]
  cases addonOrder ⟨checks, Addon.byId addons⟩ ((Addon.byId addons).map (·.1)) <;> rfl

theorem new_eq_ok_iff :
    new checks addons = .ok r ↔ r = ⟨checks, Addon.byId addons⟩ ∧ r.Valid := by
  cases hbad : (badCheck? ⟨checks, Addon.byId addons⟩ [] checks).or
      (badAddon? ⟨checks, Addon.byId addons⟩) with
  | some e =>
    rw [new_of_bad hbad]
    refine ⟨nofun, ?_⟩
    rintro ⟨rfl, hnames, hrequirements, hdependencies, -⟩
    have hcheck := badCheck?_eq_none_iff.2 ⟨hnames, fun _ _ => List.not_mem_nil, hrequirements⟩
    rw [hcheck, badAddon?_eq_none_iff.2 hdependencies] at hbad
    cases hbad
  | none =>
    rw [new_of_not_bad hbad]
    obtain ⟨hcheck, haddon⟩ := Option.or_eq_none_iff.1 hbad
    obtain ⟨hnames, -, hrequirements⟩ := badCheck?_eq_none_iff.1 hcheck
    have hdependencies := badAddon?_eq_none_iff.1 haddon
    constructor
    · intro h
      cases horder : addonOrder ⟨checks, Addon.byId addons⟩ ((Addon.byId addons).map (·.1)) with
      | error e =>
        rw [horder] at h
        cases h
      | ok order =>
        rw [horder] at h
        cases h
        exact ⟨rfl, hnames, hrequirements, hdependencies,
          acyclic_iff_exists_addonOrder.2 ⟨order, horder⟩⟩
    · rintro ⟨rfl, -, -, -, hacyclic⟩
      obtain ⟨order, horder⟩ := acyclic_iff_exists_addonOrder.1 hacyclic
      rw [horder]
      rfl

theorem builtin_valid : Valid ⟨Check.builtin, Addon.byId Addon.builtin⟩ where
  names := by decide
  requirements := by decide
  dependencies := by
    have h : ∀ entry ∈ Addon.byId Addon.builtin, ∀ d ∈ entry.2.dependsOn,
        knows ⟨Check.builtin, Addon.byId Addon.builtin⟩ d := by decide
    exact fun id addon hmem => h (id, addon) hmem
  acyclic :=
    acyclic_iff_exists_addonOrder.2 ⟨["glsa", "packages", "profiles", "use-flags"], by cbv⟩

theorem builtin_eq : builtin = .ok ⟨Check.builtin, Addon.byId Addon.builtin⟩ :=
  new_eq_ok_iff.2 ⟨rfl, builtin_valid⟩

theorem isCycle_of_new (h : new checks addons = .error (.addonCycle path)) :
    IsCycle ⟨checks, Addon.byId addons⟩ path := by
  cases hbad : (badCheck? ⟨checks, Addon.byId addons⟩ [] checks).or
      (badAddon? ⟨checks, Addon.byId addons⟩) with
  | some e =>
    rw [new_of_bad hbad] at h
    cases h
    rcases Option.or_eq_some_iff.1 hbad with hcheck | ⟨-, haddon⟩
    · exact absurd hcheck badCheck?_ne_addonCycle
    · exact absurd haddon badAddon?_ne_addonCycle
  | none =>
    rw [new_of_not_bad hbad] at h
    cases horder : addonOrder ⟨checks, Addon.byId addons⟩ ((Addon.byId addons).map (·.1)) with
    | ok order =>
      rw [horder] at h
      cases h
    | error e =>
      rw [horder] at h
      cases h
      obtain ⟨cycle, hcycle, hisCycle⟩ := addonOrder_error horder
      cases hcycle
      exact hisCycle

theorem knows_byId : knows ⟨checks, Addon.byId addons⟩ id ↔ ∃ addon ∈ addons, addon.id = id := by
  rw [knows_iff, ← Addon.last?_ne_none]
  simp [Option.ne_none_iff_exists', Addon.mem_byId]

theorem dependsOn_byId : DependsOn ⟨checks, Addon.byId addons⟩ = Addon.Declares addons := by
  funext id d
  rw [DependsOn, dependenciesOf, Addon.lookup_byId, Addon.Declares]
  cases Addon.last? addons id <;> simp

theorem acyclic_of_new (h : new checks addons = .ok r) (id : AddonId) :
    ¬Relation.TransGen (Addon.Declares addons) id id := by
  obtain ⟨rfl, hvalid⟩ := new_eq_ok_iff.1 h
  have hacyclic := hvalid.acyclic id
  rwa [dependsOn_byId] at hacyclic

/--
A registry is made just of checks with unique names and of addons that are all known and do not
depend on each other in turn; the cycle of an error is one of declared dependencies.
-/
theorem new_exact (checks : List Check) (addons : List Addon) :
    ((∃ r, new checks addons = .ok r) ↔
      (checks.map (·.name)).Nodup ∧
      (∀ c ∈ checks, ∀ id ∈ c.requiredAddons, ∃ addon ∈ addons, addon.id = id) ∧
      (∀ id d, Addon.Declares addons id d → ∃ addon ∈ addons, addon.id = d) ∧
      ∀ id, ¬Relation.TransGen (Addon.Declares addons) id id) ∧
    ∀ path, new checks addons = .error (.addonCycle path) →
      2 ≤ path.length ∧ path.head? = path.getLast? ∧ path.IsChain (Addon.Declares addons) := by
  constructor
  · simp only [new_eq_ok_iff, exists_eq_left]
    constructor
    · rintro ⟨hnames, hrequirements, hdependencies, hacyclic⟩
      refine ⟨hnames, fun c hc id hid => knows_byId.1 (hrequirements c hc id hid), ?_, ?_⟩
      · rintro id d ⟨addon, haddon, hd⟩
        exact knows_byId.1 (hdependencies id addon (Addon.mem_byId.2 haddon) d hd)
      · rwa [Acyclic, dependsOn_byId] at hacyclic
    · rintro ⟨hnames, hrequirements, hdependencies, hacyclic⟩
      refine ⟨hnames, fun c hc id hid => knows_byId.2 (hrequirements c hc id hid), ?_, ?_⟩
      · intro id addon haddon d hd
        exact knows_byId.2 (hdependencies id d ⟨addon, Addon.mem_byId.1 haddon, hd⟩)
      · rwa [Acyclic, dependsOn_byId]
  · intro path hpath
    obtain ⟨hlength, hends, hchain⟩ := isCycle_of_new hpath
    rw [dependsOn_byId] at hchain
    exact ⟨hlength, hends, hchain⟩

theorem new_exact_loop :
    let addons : List Addon :=
      [.constant "a" ["b"] 0, .constant "b" ["c", "b"] 0, .constant "c" [] 0]
    new [] addons = .error (.addonCycle ["b", "b"]) ∧
      2 ≤ ["b", "b"].length ∧ ["b", "b"].head? = ["b", "b"].getLast? ∧
        ["b", "b"].IsChain (Addon.Declares addons) := by
  intro addons
  have hnew : new [] addons = .error (.addonCycle ["b", "b"]) := by cbv
  exact ⟨hnew, (new_exact [] addons).2 _ hnew⟩

end Registry

end EbuildAudit
