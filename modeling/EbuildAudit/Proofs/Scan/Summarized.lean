import EbuildAudit.Proofs.Check.Summary
import EbuildAudit.Proofs.Registry.Validation
import EbuildAudit.Proofs.Scan.Serial
import EbuildAudit.Proofs.Scan.Unparseable
import EbuildAudit.Proofs.Text.ByteOrder

/-!
The summary of a package in a scan. A package is given the issues of all its versions and their number,
and versions of a package have different names, so a kind that as many units have as there are
versions is one that no version lacks.
-/

namespace EbuildAudit

structure Check.Genuine (c : Check) (unit : ScanUnit) (issue : Issue) : Prop where
  unit : issue.check ∈ Check.summarized → issue.unit = unit.id.display
  summary : issue.check = Check.shellSummary.name → c.name = Check.shellSummary.name

/--
A check that forges nothing: its issues under the name of a summarized check are about the unit that
it looked at, and it reports under the name of the summary only if it is the summary. An issue of
another name or about another unit would be counted for a version that has none.
-/
def Check.Honest (c : Check) : Prop :=
  ∀ ctx, Checking.Returns (fun issues => ∀ issue ∈ issues, c.Genuine ctx.unit issue) (c.run ctx)

theorem Check.Candid.honest {c : Check} (h : c.Candid) : c.Honest := by
  intro ctx answers issues hrun issue hissue
  have hreports := h ctx answers issues hrun issue hissue
  exact ⟨fun _ => hreports.unit, fun hsummary => hreports.check.symm.trans hsummary⟩

/-- The checks of the program report under their own names and about the unit they are given. -/
theorem Check.builtin_honest : ∀ c ∈ Check.builtin, c.Honest :=
  fun c hc => (Check.builtin_candid c hc).honest

theorem Registry.honest_of_plan {r : Registry} {selection : Selection} {plan : Plan}
    (hr : r.checks = Check.builtin) (hp : r.plan selection = .ok plan) :
    ∀ c ∈ plan.checks, c.Honest := by
  intro c hc
  rw [(plan_eq_ok_iff.1 hp).2.1] at hc
  exact Check.builtin_honest c (hr ▸ (plannedChecks_sublist r selection).subset hc)

theorem ScanUnit.id_eq_of_display_eq {a b : ScanUnit} {id : UnitId} (ha : a.liesBelow id = true)
    (hb : b.liesBelow id = true) (h : a.id.display = b.id.display) : a.id = b.id := by
  obtain ⟨hscope, hparent⟩ := liesBelow_iff.1 ha
  obtain ⟨hscope', hparent'⟩ := liesBelow_iff.1 hb
  obtain ⟨_ | _, path, children⟩ := a <;> cases hscope
  obtain ⟨_ | _, path', children'⟩ := b <;> cases hscope'
  cases hparent
  cases hparent'
  have htext := congrArg String.toList h
  simp only [UnitId.display, String.toList_append, List.append_cancel_left_eq,
    String.toList_inj] at htext
  rw [htext]

namespace Scan

def History.versionsOf (h : History) (id : UnitId) : List Made :=
  h.made.filter fun m => m.work.unit.liesBelow id

section

variable {plan : Plan} {grammar : Grammar} {unit : ScanUnit} {children : List Issue} {count : Nat}
  {store : Store} {answers : AddonId → Outcome} {ctx : CheckContext} {c : Check} {issue : Issue}

theorem genuine_new {kind message : String} {severity : Severity} :
    c.Genuine unit (.new c.name kind unit severity message) :=
  ⟨fun _ => rfl, id⟩

theorem genuine_of_reportWith (hc : c.Honest) (h : issue ∈ (reportWith answers ctx c).all) :
    c.Genuine ctx.unit issue := by
  rw [reportWith] at h
  split at h
  case h_1 notice hnotice =>
    obtain ⟨addon, -, haddon⟩ := List.exists_of_findSome?_eq_some hnotice
    cases List.mem_singleton.1 h
    revert haddon
    cases answers addon <;> rintro ⟨⟩ <;> exact genuine_new
  case h_2 =>
    have h : issue ∈ segment c.name ctx.unit ((c.run ctx).run.answer (m := Id) answers) := h
    cases hrun : (c.run ctx).run.answer (m := Id) answers with
    | ok issues =>
      rw [hrun] at h
      exact hc ctx answers issues hrun issue h
    | error fault =>
      rw [hrun] at h
      cases List.mem_singleton.1 h
      exact genuine_new

theorem unit_of_unitReport (hhonest : ∀ c ∈ plan.checks, c.Honest)
    (h : issue ∈ (unitReport plan grammar unit children count store).1.all)
    (hcheck : issue.check ∈ Check.summarized) : issue.unit = unit.id.display := by
  by_cases hchecks : plan.checksFor unit.scope = []
  · rw [unitReport_of_nil hchecks] at h
    cases h
  · cases hm : (metadata unit store).1 with
    | error fault =>
      rw [unitReport_of_unreadable hchecks hm] at h
      cases List.mem_singleton.1 h
      rfl
    | ok found =>
      rw [unitReport_eq hm .refl] at h
      obtain ⟨report, hreport, hissue⟩ := mem_all_concat.1 h
      obtain ⟨c, hc, rfl⟩ := List.mem_map.1 hreport
      exact (genuine_of_reportWith (hhonest c (List.mem_of_mem_filter hc)) hissue).unit hcheck

theorem summary_of_unitReport (hnames : (plan.checks.map (·.name)).Nodup)
    (hhonest : ∀ c ∈ plan.checks, c.Honest) (hplanned : Check.shellSummary ∈ plan.checks)
    (hunit : unit.scope = .package) :
    (unitReport plan grammar unit children count store).1.all.filter
        (·.check == "ShellSummaryCheck") =
      (if count < 2 then [] else Check.kindsEverywhere children count).map
        (Check.inAllVersions unit count) := by
  obtain ⟨l, r, hlr, hothers⟩ := exists_others hnames hplanned
  have hm : (metadata unit store).1 = .ok none := by
    simp only [metadata, hunit]
    rfl
  have hscope : unit.scope = Check.shellSummary.scope := hunit
  rw [unitReport_eq hm .refl, hscope, hlr, List.map_append, List.map_cons, filter_all_concat,
    reportWith_of_pure rfl (Check.run_shellSummary _)]
  · refine List.filter_eq_self.2 fun issue hissue => ?_
    obtain ⟨kind, -, rfl⟩ := List.mem_map.1 hissue
    rfl
  · intro report hreport
    rw [← List.map_append] at hreport
    obtain ⟨c, hc, rfl⟩ := List.mem_map.1 hreport
    rw [List.filter_eq_nil_iff]
    intro issue hissue
    obtain ⟨hplanned, hne⟩ := hothers c hc
    have hgenuine := genuine_of_reportWith (hhonest c hplanned) hissue
    exact fun heq => hne (hgenuine.summary (beq_iff_eq.1 heq))

end

variable {rules : Rules σ} {options : Options} {store : σ} {units : List ScanUnit}
  {h : History} {s : State σ} {unit : ScanUnit} {m v : Made} {issue : Issue} {id : UnitId}
  {n : Nat}

namespace PostOrdered

theorem eq_of_id_eq (hunits : PostOrdered units) {i j : Nat} {a b : ScanUnit}
    (ha : units[i]? = some a) (hb : units[j]? = some b) (hid : a.id = b.id) : i = j := by
  obtain ⟨hi, rfl⟩ := List.getElem?_eq_some_iff.1 ha
  obtain ⟨hj, rfl⟩ := List.getElem?_eq_some_iff.1 hb
  have hpairwise := List.pairwise_iff_getElem.1 (List.pairwise_map.1 hunits.nodup)
  rcases Nat.lt_trichotomy i j with hlt | heq | hgt
  · exact absurd hid (hpairwise i j hi hj hlt)
  · exact heq
  · exact absurd hid.symm (hpairwise j i hj hi hgt)

theorem lt_of_liesBelow (hunits : PostOrdered units) {i j : Nat} {a b : ScanUnit}
    (ha : units[i]? = some a) (hb : units[j]? = some b) (hbelow : a.liesBelow b.id = true) :
    i < j := by
  obtain ⟨hi, rfl⟩ := List.getElem?_eq_some_iff.1 ha
  obtain ⟨hj, rfl⟩ := List.getElem?_eq_some_iff.1 hb
  rcases Nat.lt_trichotomy i j with hlt | rfl | hgt
  · exact hlt
  · exact absurd rfl (ScanUnit.liesBelow_ne hbelow)
  · rw [List.pairwise_iff_getElem.1 hunits.above j i hj hi hgt] at hbelow
    cases hbelow

theorem mem_since (hunits : PostOrdered units) (hn : units[n]? = some unit) {k : Nat} :
    k ∈ since units unit.id n ↔ ∃ a, units[k]? = some a ∧ a.liesBelow unit.id = true := by
  have hlength := (List.getElem?_eq_some_iff.1 hn).1
  rw [Scan.mem_since (Nat.le_of_lt hlength)]
  constructor
  · rintro ⟨-, hbelow, -⟩
    exact hbelow
  · rintro ⟨a, ha, hbelow⟩
    refine ⟨hunits.lt_of_liesBelow ha hn hbelow, ⟨a, ha, hbelow⟩, fun j other _ hjn hj hid => ?_⟩
    exact Nat.ne_of_lt hjn (hunits.eq_of_id_eq hj hn hid)

end PostOrdered

theorem mem_versionsOf : v ∈ h.versionsOf id ↔ v ∈ h.made ∧ v.work.unit.liesBelow id = true :=
  List.mem_filter

namespace Trace

theorem exists_store (ht : Trace (.start rules options store units) h s) :
    ∀ m ∈ h.made, ∃ store', m.report =
      (rules.report m.work.unit m.children m.work.children store').1 := by
  refine ht.invariant (I := fun h _ => ∀ m ∈ h.made, ∃ store', m.report =
    (rules.report m.work.unit m.children m.work.children store').1)
    (by simp [History.empty]) fun {h s p h' t} ht hI hs => ?_
  cases hs
  case make i work taken hw hc =>
    intro m hm
    rcases List.mem_append.1 hm with hm | hm
    · exact hI m hm
    · rw [List.mem_singleton] at hm
      subst hm
      refine ⟨s.store, ?_⟩
      simp only [State.reportOf, ht.rules_eq]
      rfl
  all_goals exact hI

theorem issuesOf_of_made (ht : Trace (.start rules options store units) h s) (hv : v ∈ h.made) :
    h.issuesOf v.work.number = v.report.issues := by
  rw [h.issuesOf_eq, ht.reportAt_of_made hv]

theorem made_eq_of_id_eq (ht : Trace (.start rules options store units) h s)
    (hunits : PostOrdered units) {v w : Made} (hv : v ∈ h.made) (hw : w ∈ h.made)
    (hid : v.work.unit.id = w.work.unit.id) : v = w :=
  List.inj_on_of_nodup_map ht.made_nodup hv hw
    (hunits.eq_of_id_eq (ht.unit_of_made hv) (ht.unit_of_made hw) hid)

theorem versionsOf_nodup (ht : Trace (.start rules options store units) h s) (id : UnitId) :
    (h.versionsOf id).Nodup :=
  (List.Nodup.of_map _ ht.made_nodup).filter _

section

variable (ht : Trace (.start rules options store units) h s) (hrules : rules.Aggregating)
  (hunits : PostOrdered units) (hm : m ∈ h.made) (hcollects : rules.collects m.work.unit = true)

include ht hrules hunits hm hcollects

theorem numbers_versionsOf :
    ((h.versionsOf m.work.unit.id).map fun v => v.work.number).Perm
      (since units m.work.unit.id m.work.number) := by
  have hn := ht.unit_of_made hm
  have hnodup : ((h.versionsOf m.work.unit.id).map fun v => v.work.number).Nodup :=
    (List.filter_sublist.map _).nodup ht.made_nodup
  rw [List.perm_ext_iff_of_nodup hnodup (since_nodup _ _ _)]
  intro k
  constructor
  · intro hk
    obtain ⟨v, hv, rfl⟩ := List.mem_map.1 hk
    obtain ⟨hv, hbelow⟩ := mem_versionsOf.1 hv
    exact (hunits.mem_since hn).2 ⟨_, ht.unit_of_made hv, hbelow⟩
  · intro hk
    obtain ⟨a, ha, hbelow⟩ := (hunits.mem_since hn).1 hk
    rw [← (ht.exact_of_calm hrules (hunits.calm _ _) hm hcollects).1] at hk
    obtain ⟨d, hd, rfl⟩ := List.mem_map.1 hk
    obtain ⟨v, hv, hdeposit⟩ := ht.deposit_source (.inr ⟨m, hm, hd⟩)
    have hnumber := (deposit_eq_some hdeposit).2.2.1
    have hunit := ht.unit_of_made hv
    rw [← hnumber, ha] at hunit
    obtain rfl := Option.some_inj.1 hunit
    exact List.mem_map.2 ⟨v, mem_versionsOf.2 ⟨hv, hbelow⟩, hnumber.symm⟩

theorem children_versionsOf : m.work.children = (h.versionsOf m.work.unit.id).length := by
  have hlength := (ht.numbers_versionsOf hrules hunits hm hcollects).length_eq
  rw [List.length_map] at hlength
  have hwork := (ht.mem_handed (ht.handed_of_made hm)).2
  have hchildren := congrArg Work.children hwork
  simp only [workOf, if_pos (hrules.collects_package hcollects)] at hchildren
  rw [hchildren, hlength]

theorem mem_children : issue ∈ m.children ↔
    ∃ v ∈ h.versionsOf m.work.unit.id, issue ∈ v.report.issues := by
  have hnumbers := ht.numbers_versionsOf hrules hunits hm hcollects
  rw [(ht.exact_of_calm hrules (hunits.calm _ _) hm hcollects).2, List.mem_flatMap]
  constructor
  · rintro ⟨k, hk, hissue⟩
    obtain ⟨v, hv, rfl⟩ := List.mem_map.1 (hnumbers.mem_iff.2 hk)
    rw [ht.issuesOf_of_made (mem_versionsOf.1 hv).1] at hissue
    exact ⟨v, hv, hissue⟩
  · rintro ⟨v, hv, hissue⟩
    refine ⟨v.work.number, hnumbers.mem_iff.1 (List.mem_map_of_mem hv), ?_⟩
    rw [ht.issuesOf_of_made (mem_versionsOf.1 hv).1]
    exact hissue

theorem units_versionsOf : ((h.versionsOf m.work.unit.id).map fun v => v.work.unit).Perm
    (units.filter (·.liesBelow m.work.unit.id)) := by
  have hnodup : ((h.versionsOf m.work.unit.id).map fun v => v.work.unit).Nodup :=
    (ht.versionsOf_nodup _).map_on fun v hv w hw heq => ht.made_eq_of_id_eq hunits
      (mem_versionsOf.1 hv).1 (mem_versionsOf.1 hw).1 (congrArg ScanUnit.id heq)
  rw [List.perm_ext_iff_of_nodup hnodup ((List.Nodup.of_map _ hunits.nodup).filter _)]
  intro a
  rw [List.mem_filter]
  constructor
  · intro ha
    obtain ⟨v, hv, rfl⟩ := List.mem_map.1 ha
    obtain ⟨hv, hbelow⟩ := mem_versionsOf.1 hv
    exact ⟨List.mem_of_getElem? (ht.unit_of_made hv), hbelow⟩
  · rintro ⟨ha, hbelow⟩
    obtain ⟨k, hk⟩ := List.getElem?_of_mem ha
    have hmem := (hunits.mem_since (ht.unit_of_made hm)).2 ⟨a, hk, hbelow⟩
    rw [← (ht.numbers_versionsOf hrules hunits hm hcollects).mem_iff] at hmem
    obtain ⟨v, hv, rfl⟩ := List.mem_map.1 hmem
    have hunit := ht.unit_of_made (mem_versionsOf.1 hv).1
    rw [hk] at hunit
    exact List.mem_map.2 ⟨v, hv, (Option.some_inj.1 hunit).symm⟩

end

end Trace

section

variable {plan : Plan} {grammar : Grammar} {store : Store} {s : State Store} {kind : String}

theorem collects_of_summary (hplanned : Check.shellSummary ∈ plan.checks)
    (hunit : unit.scope = .package) : (Scan.rules plan grammar).collects unit = true := by
  have hmem : Check.shellSummary ∈ plan.checksFor .package := List.mem_filter.2 ⟨hplanned, rfl⟩
  simp only [Scan.rules, hunit, beq_self_eq_true, Bool.true_and, List.any_eq_true]
  exact ⟨_, hmem, rfl⟩

variable (ht : Trace (.start (Scan.rules plan grammar) options store units) h s)
  (hunits : PostOrdered units) (hhonest : ∀ c ∈ plan.checks, c.Honest)
  (hplanned : Check.shellSummary ∈ plan.checks) (hm : m ∈ h.made)
  (hpackage : m.work.unit.scope = .package)

include ht hhonest in
theorem unit_of_made_report (hv : v ∈ h.made) (hissue : issue ∈ v.report.issues)
    (hcheck : issue.check ∈ Check.summarized) : issue.unit = v.work.unit.id.display := by
  obtain ⟨store', hreport⟩ := ht.exists_store v hv
  rw [hreport] at hissue
  exact unit_of_unitReport hhonest (List.mem_append_right _ hissue) hcheck

include ht hunits hhonest hplanned hm hpackage

theorem mem_kindsEverywhere_children (hne : h.versionsOf m.work.unit.id ≠ []) :
    kind ∈ Check.kindsEverywhere m.children (h.versionsOf m.work.unit.id).length ↔
      ∀ v ∈ h.versionsOf m.work.unit.id, ∃ issue ∈ v.report.issues,
        issue.check ∈ Check.summarized ∧ issue.kind = kind := by
  have hrules := rules_aggregating plan grammar
  have hcollects : (Scan.rules plan grammar).collects m.work.unit = true :=
    collects_of_summary hplanned hpackage
  have hchildren {issue : Issue} : issue ∈ m.children ↔
      ∃ v ∈ h.versionsOf m.work.unit.id, issue ∈ v.report.issues :=
    ht.mem_children hrules hunits hm hcollects
  have hinj : ∀ v ∈ h.versionsOf m.work.unit.id, ∀ w ∈ h.versionsOf m.work.unit.id,
      v.work.unit.id.display = w.work.unit.id.display → v = w := by
    intro v hv w hw hdisplay
    obtain ⟨hv, hbelow⟩ := mem_versionsOf.1 hv
    obtain ⟨hw, hbelow'⟩ := mem_versionsOf.1 hw
    exact ht.made_eq_of_id_eq hunits hv hw (ScanUnit.id_eq_of_display_eq hbelow hbelow' hdisplay)
  have hnames : ((h.versionsOf m.work.unit.id).map fun v => v.work.unit.id.display).Nodup :=
    (ht.versionsOf_nodup _).map_on hinj
  have hunit : ∀ issue ∈ m.children, Check.counts issue →
      issue.unit ∈ (h.versionsOf m.work.unit.id).map fun v => v.work.unit.id.display := by
    intro issue hissue hcounts
    obtain ⟨v, hv, hissue⟩ := hchildren.1 hissue
    rw [unit_of_made_report ht hhonest (mem_versionsOf.1 hv).1 hissue
      (List.contains_iff_mem.1 hcounts)]
    exact List.mem_map_of_mem hv
  have hiff : kind ∈ Check.kindsEverywhere m.children _ ↔ _ :=
    Check.mem_kindsEverywhere hnames (by simpa using hne) hunit
  rw [List.length_map, List.forall_mem_map] at hiff
  rw [hiff]
  refine forall₂_congr fun v hv => ?_
  constructor
  · rintro ⟨issue, hissue, hcounts, hkind, hdisplay⟩
    have hcheck := List.contains_iff_mem.1 hcounts
    obtain ⟨w, hw, hissue⟩ := hchildren.1 hissue
    have hsame := unit_of_made_report ht hhonest (mem_versionsOf.1 hw).1 hissue hcheck
    obtain rfl := hinj v hv w hw (hdisplay.symm.trans hsame)
    exact ⟨issue, hissue, hcheck, hkind⟩
  · rintro ⟨issue, hissue, hcheck, hkind⟩
    exact ⟨issue, hchildren.2 ⟨v, hv, hissue⟩, List.contains_iff_mem.2 hcheck, hkind,
      unit_of_made_report ht hhonest (mem_versionsOf.1 hv).1 hissue hcheck⟩

end

/--
The summary of a package tells of the kinds that every version has, and of each once and in the order
of its bytes: there are at least two versions, and the report of each has an issue of the kind from
one of the checks that are summarized. These versions are all that the scan has of the package, with
metadata that can be read or not. A scan that is not stopped has come to every package in the end.
-/
theorem summary_everyVersion {checks : List Check} {addons : List Addon} {r : Registry}
    {selection : Selection} {plan : Plan} {grammar : Grammar} {store : Store} {s : State Store}
    (hr : Registry.new checks addons = .ok r) (hp : r.plan selection = .ok plan)
    (hhonest : ∀ c ∈ plan.checks, c.Honest) (hplanned : Check.shellSummary ∈ plan.checks)
    (hunits : PostOrdered units)
    (ht : Trace (.start (Scan.rules plan grammar) options store units) h s) :
    (∀ m ∈ h.made, m.work.unit.scope = .package →
      let versions := h.versionsOf m.work.unit.id
      (versions.map fun v => v.work.unit).Perm (units.filter (·.liesBelow m.work.unit.id)) ∧
      ∃ kinds : List String,
        (kinds.Pairwise fun kind kind' => Text.bytes kind < Text.bytes kind') ∧
        (∀ kind, kind ∈ kinds ↔ 2 ≤ versions.length ∧ ∀ v ∈ versions,
          ∃ issue ∈ v.report.issues, issue.check ∈ Check.summarized ∧ issue.kind = kind) ∧
        m.report.all.filter (·.check == "ShellSummaryCheck") =
          kinds.map (Check.inAllVersions m.work.unit versions.length)) ∧
      (s.isFinished = true → s.stopped = false → ∀ n unit, units[n]? = some unit →
        ∃ m ∈ h.made, m.work.unit = unit ∧ (n, m.report) ∈ h.emitted) := by
  constructor
  · intro m hm hpackage versions
    have hrules := rules_aggregating plan grammar
    have hcollects : (Scan.rules plan grammar).collects m.work.unit = true :=
      collects_of_summary hplanned hpackage
    refine ⟨ht.units_versionsOf hrules hunits hm hcollects,
      if versions.length < 2 then [] else Check.kindsEverywhere m.children versions.length,
      ?_, fun kind => ?_, ?_⟩
    · split
      · exact List.Pairwise.nil
      · exact (Check.kindsEverywhere_pairwise _ _).imp Text.lt_iff_bytes_lt.1
    · split
      case isTrue hlt => simp [Nat.not_le_of_lt hlt]
      case isFalse hle =>
        have hle := Nat.le_of_not_lt hle
        have hne : versions ≠ [] := List.ne_nil_of_length_pos (by omega)
        rw [mem_kindsEverywhere_children ht hunits hhonest hplanned hm hpackage hne]
        exact (and_iff_right hle).symm
    · have hnames : (plan.checks.map (·.name)).Nodup := by
        obtain ⟨rfl, hvalid⟩ := Registry.new_eq_ok_iff.1 hr
        rw [(Registry.plan_eq_ok_iff.1 hp).2.1]
        exact ((Registry.plannedChecks_sublist _ selection).map _).nodup hvalid.names
      obtain ⟨store', hreport⟩ := ht.exists_store m hm
      rw [hreport]
      have hchildren : m.work.children = versions.length :=
        ht.children_versionsOf hrules hunits hm hcollects
      rw [← hchildren]
      exact summary_of_unitReport hnames hhonest hplanned hpackage
  · intro hs hb n unit hu
    have hout : n < s.nextOut := by
      rw [ht.nextOut_of_finished hs, (ht.cancelled_of_finished hs).2 hb]
      exact (List.getElem?_eq_some_iff.1 hu).1
    obtain ⟨m, hm, rfl, hemitted⟩ := ht.exists_made_of_out hout
    have hunit := ht.unit_of_made hm
    rw [hu] at hunit
    exact ⟨m, hm, (Option.some_inj.1 hunit).symm, hemitted⟩

def twoVersions : List ScanUnit :=
  [⟨.version "a" "p" "1", "a/p/p-1.ebuild", 0⟩, ⟨.version "a" "p" "2", "a/p/p-2.ebuild", 0⟩,
    ⟨.package "a" "p", "a/p", 0⟩]

def syntaxPlan : Plan :=
  ⟨[Check.shellSyntax, Check.shellSummary], []⟩

theorem syntaxPlan_report (hunit : unit.scope = .version) (children : List Issue) (count : Nat) :
    (Scan.rules syntaxPlan unread).report unit children count bareStore =
      (⟨[], [Check.unparseable unit ⟨"unread", 1, 1⟩]⟩, bareStore) := by
  obtain ⟨id, path, n⟩ := unit
  cases id with
  | version => rfl
  | _ => cases hunit

theorem summary_everyVersion_twoVersions :
    ∃ h s, Trace (.start (Scan.rules syntaxPlan unread) ⟨2, 1, 2, none⟩ bareStore twoVersions) h s ∧
      ∃ m ∈ h.made, m.work.unit = twoVersions[2] ∧
        Check.inAllVersions twoVersions[2] 2 "UnparseableScript" ∈ m.report.all := by
  have hplan : Registry.plan ⟨Check.builtin, Addon.byId Addon.builtin⟩
      ⟨["ShellSyntaxCheck", "ShellSummaryCheck"], []⟩ = .ok syntaxPlan :=
    Registry.plan_eq_ok_iff.2 ⟨⟨by decide, by decide⟩, rfl, by cbv⟩
  have hhonest : ∀ c ∈ syntaxPlan.checks, c.Honest := Registry.honest_of_plan rfl hplan
  have hplanned : Check.shellSummary ∈ syntaxPlan.checks := List.mem_cons_of_mem _ List.mem_cons_self
  have hunits : PostOrdered twoVersions := ⟨by decide, by decide⟩
  let rules := Scan.rules syntaxPlan unread
  let options : Options := ⟨2, 1, 2, none⟩
  obtain ⟨h, ht⟩ := Trace.run rules options bareStore twoVersions
  have hs : (State.start rules options bareStore twoVersions).run.isFinished = true :=
    run_isFinished (rules_aggregating syntaxPlan unread) options bareStore hunits.packagesOnce
  have hb : (State.start rules options bareStore twoVersions).run.stopped = false :=
    runWithin_stopped rfl _
  obtain ⟨hpackages, hall⟩ :=
    summary_everyVersion Registry.builtin_eq hplan hhonest hplanned hunits ht
  obtain ⟨m, hm, hunit, -⟩ := hall hs hb 2 twoVersions[2] rfl
  obtain ⟨hperm, kinds, -, hkinds, hsummary⟩ := hpackages m hm (by rw [hunit]; rfl)
  rw [hunit] at hperm hkinds hsummary
  have htwo : (h.versionsOf twoVersions[2].id).length = 2 := by
    have hlength := hperm.length_eq
    rw [List.length_map] at hlength
    exact hlength
  rw [htwo] at hkinds hsummary
  have hkind : "UnparseableScript" ∈ kinds := by
    refine (hkinds _).2 ⟨Nat.le_refl 2, fun v hv => ?_⟩
    obtain ⟨hv, hbelow⟩ := mem_versionsOf.1 hv
    have hfixed : bareStore.Fixed := (Store.layered_of_no_addons rfl rfl).fixed rfl
    have hreport := ht.made_report (rules_settled syntaxPlan unread hfixed) v hv
    rw [syntaxPlan_report (ScanUnit.liesBelow_iff.1 hbelow).1] at hreport
    rw [hreport]
    have hcheck : "ShellSyntaxCheck" ∈ Check.summarized := by decide
    exact ⟨_, List.mem_cons_self, hcheck, rfl⟩
  have htold : Check.inAllVersions twoVersions[2] 2 "UnparseableScript" ∈
      m.report.all.filter (·.check == "ShellSummaryCheck") := by
    rw [hsummary]
    exact List.mem_map_of_mem hkind
  exact ⟨h, _, ht, m, hm, hunit, List.mem_of_mem_filter htold⟩

end Scan

end EbuildAudit
