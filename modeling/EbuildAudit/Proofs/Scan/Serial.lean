import EbuildAudit.Proofs.Addon.Layered
import EbuildAudit.Proofs.Scan.Aggregation
import EbuildAudit.Proofs.Scan.Completion
import EbuildAudit.Proofs.Scan.Isolation

/-!
What comes out of a scan does not depend on the turns that its parties take: it is what one worker
would find that goes through the units alone, as far as they were given out.
-/

namespace EbuildAudit.Scan

def issuesAt (reports : List UnitReport) (number : Nat) : List Issue :=
  (reports[number]?.map (·.issues)).getD []

def childrenIn (rules : Rules σ) (units : List ScanUnit) (n : Nat) (unit : ScanUnit)
    (reports : List UnitReport) : List Issue :=
  if rules.collects unit then (since units unit.id n).flatMap (issuesAt reports) else []

/-- The reports of the first units, one made after the other. A package is given the issues of the
versions that came since it last did. -/
def serialReports (rules : Rules σ) (units : List ScanUnit) : Nat → StateM σ (List UnitReport)
  | 0 => return []
  | n + 1 => do
    let reports ← serialReports rules units n
    match units[n]? with
    | none => return reports
    | some unit =>
      let children := childrenIn rules units n unit reports
      return reports ++ [← rules.report unit children (workOf units n unit).children]

def Output.ofReports (reports : List UnitReport) : Output :=
  reports.foldl emitReport .empty

def serial (rules : Rules σ) (store : σ) (units : List ScanUnit) (n : Nat) : Result :=
  let output := Output.ofReports (serialReports rules units n store).1
  ⟨output.issues.reverse, { output.summary with cancelled := n < units.length }⟩

def Rules.Settled (rules : Rules σ) (store : σ) : Prop :=
  ∃ I : σ → Prop, I store ∧ ∀ s, I s → ∀ unit children count,
    (rules.report unit children count s).1 = (rules.report unit children count store).1 ∧
      I (rules.report unit children count s).2

def History.reportAt (h : History) (number : Nat) : UnitReport :=
  ((h.made.map Made.numbered).lookup number).getD .empty

variable {rules : Rules σ} {options : Options} {store : σ} {units : List ScanUnit}
  {h : History} {s : State σ} {unit : ScanUnit} {m : Made} {n : Nat}

theorem History.issuesOf_eq (h : History) (number : Nat) :
    h.issuesOf number = (h.reportAt number).issues := by
  rw [issuesOf, reportAt]
  cases (h.made.map Made.numbered).lookup number <;> rfl

namespace Output

theorem exists_issues_emit (issues : List Issue) (o : Output) :
    ∃ l, (issues.foldl emit o).issues = l ++ o.issues := by
  induction issues generalizing o with
  | nil => exact ⟨[], rfl⟩
  | cons issue issues ih =>
    obtain ⟨l, hl⟩ := ih (o.emit issue)
    exact ⟨l ++ [issue], by rw [List.foldl_cons, hl, emit]; simp⟩

theorem exists_issues_emitNotice (notices : List Issue) (o : Output) :
    ∃ l, (notices.foldl emitNotice o).issues = l ++ o.issues := by
  induction notices generalizing o with
  | nil => exact ⟨[], rfl⟩
  | cons notice notices ih =>
    obtain ⟨l, hl⟩ := ih (o.emitNotice notice)
    simp only [emitNotice] at hl
    rw [List.foldl_cons, emitNotice]
    split at hl
    case isTrue hc =>
      rw [if_pos hc]
      exact ⟨l, hl⟩
    case isFalse hc =>
      rw [if_neg hc]
      exact ⟨l ++ [notice], by rw [hl, emit]; simp⟩

theorem exists_issues_emitReport (o : Output) (report : UnitReport) :
    ∃ l, (o.emitReport report).issues = l ++ o.issues := by
  obtain ⟨l, hl⟩ := exists_issues_emitNotice report.notices o
  obtain ⟨l', hl'⟩ := exists_issues_emit report.issues (report.notices.foldl emitNotice o)
  exact ⟨l' ++ l, by rw [emitReport, hl', hl, List.append_assoc]⟩

theorem issues_prefix (reports more : List UnitReport) :
    (ofReports reports).issues.reverse <+: (ofReports (reports ++ more)).issues.reverse := by
  rw [ofReports, ofReports, List.foldl_append]
  generalize reports.foldl emitReport empty = o
  induction more generalizing o with
  | nil => exact List.prefix_refl _
  | cons report more ih =>
    obtain ⟨l, hl⟩ := exists_issues_emitReport o report
    refine List.IsPrefix.trans ?_ (ih (o.emitReport report))
    rw [hl, List.reverse_append]
    exact List.prefix_append ..

end Output

theorem serialReports_of_some (hu : units[n]? = some unit) (store : σ) :
    serialReports rules units (n + 1) store =
      let before := serialReports rules units n store
      let made := rules.report unit (childrenIn rules units n unit before.1)
        (workOf units n unit).children before.2
      (before.1 ++ [made.1], made.2) := by
  rw [serialReports, bind_apply]
  simp only [hu]
  rfl

theorem serialReports_prefix (rules : Rules σ) (store : σ) {k : Nat} (hn : n ≤ k)
    (hk : k ≤ units.length) :
    (serialReports rules units n store).1 <+: (serialReports rules units k store).1 := by
  induction k with
  | zero =>
    cases Nat.le_zero.1 hn
    exact List.prefix_refl _
  | succ k ih =>
    by_cases hnk : n = k + 1
    · cases hnk
      exact List.prefix_refl _
    · have hu : units[k]? = some units[k] := List.getElem?_eq_getElem hk
      rw [serialReports_of_some hu]
      exact (ih (by omega) (by omega)).trans (List.prefix_append ..)

theorem serial_prefix (rules : Rules σ) (store : σ) {k : Nat} (hn : n ≤ k)
    (hk : k ≤ units.length) :
    (serial rules store units n).issues <+: (serial rules store units k).issues := by
  obtain ⟨more, hmore⟩ := serialReports_prefix rules store hn hk
  simp only [serial]
  rw [← hmore]
  exact Output.issues_prefix _ _

namespace Trace

theorem output_eq (ht : Trace (.start rules options store units) h s) :
    s.output = .ofReports (h.emitted.map (·.2)) := by
  refine ht.invariant (I := fun h s => s.output = .ofReports (h.emitted.map (·.2))) rfl
    fun {h s p h' t} ht hI hs => ?_
  cases hs
  case emit report hp =>
    rw [Output.ofReports, List.map_append, List.foldl_append]
    exact congrArg (Output.emitReport · report) hI
  all_goals exact hI

theorem of_finished (ht : Trace (.start rules options store units) h s) :
    ∀ cancelled, s.dispatcher = .finished cancelled →
      (cancelled = true ↔ s.units ≠ []) ∧ (cancelled = true → s.stopped = true) := by
  refine ht.invariant (I := fun _ s => ∀ cancelled, s.dispatcher = .finished cancelled →
    (cancelled = true ↔ s.units ≠ []) ∧ (cancelled = true → s.stopped = true))
    (by simp [State.start]) fun {h s p h' t} ht hI hs => ?_
  cases hs
  case exhaust hd hu | lapse hd hu =>
    intro cancelled hc
    cases hc
    simp [hu]
  case refuse hd hu hb | cancel hd hu hb =>
    intro cancelled hc
    cases hc
    simp [hu, hb]
  case emit report hp =>
    intro cancelled hc
    obtain ⟨hunits, hstopped⟩ := hI cancelled hc
    refine ⟨hunits, fun h => ?_⟩
    simp [State.emitReport, hstopped h]
  case stop hb =>
    intro cancelled hc
    exact ⟨(hI cancelled hc).1, fun _ => rfl⟩
  case take | quit | make | put | send | receive => exact hI
  all_goals
    intro cancelled hc
    cases hc

theorem made_report (ht : Trace (.start rules options store units) h s)
    (hsettled : rules.Settled store) :
    ∀ m ∈ h.made, m.report = (rules.report m.work.unit m.children m.work.children store).1 := by
  obtain ⟨I, hstore, hsame⟩ := hsettled
  refine (ht.invariant (I := fun h s => I s.store ∧ ∀ m ∈ h.made,
    m.report = (rules.report m.work.unit m.children m.work.children store).1)
    ⟨hstore, by simp [History.empty]⟩ fun {h s p h' t} ht hI hs => ?_).2
  cases hs
  case make i work taken hw hc =>
    obtain ⟨hreport, hkeeps⟩ :=
      hsame s.store hI.1 work.unit (taken.flatMap (·.issues)) work.children
    refine ⟨?_, fun m hm => ?_⟩
    · simp only [State.setWorker, State.reportOf, ht.rules_eq]
      exact hkeeps
    · rcases List.mem_append.1 hm with hm | hm
      · exact hI.2 m hm
      · rw [List.mem_singleton] at hm
        subst hm
        simp only [State.reportOf, ht.rules_eq]
        exact hreport
  all_goals exact hI

theorem reportAt_of_made (ht : Trace (.start rules options store units) h s) (hm : m ∈ h.made) :
    h.reportAt m.work.number = m.report := by
  rw [History.reportAt, ht.lookup_numbered hm]
  rfl

theorem map_snd_emitted (ht : Trace (.start rules options store units) h s) :
    h.emitted.map (·.2) = (List.range s.nextOut).map h.reportAt := by
  rw [← ht.map_fst_emitted, List.map_map]
  apply List.map_congr_left
  intro p hp
  obtain ⟨m, hm, rfl⟩ := ht.exists_made_of_emitted hp
  exact (ht.reportAt_of_made hm).symm

theorem children_eq_childrenIn (ht : Trace (.start rules options store units) h s)
    (hrules : rules.Aggregating) (horderly : Orderly units h.made) (hm : m ∈ h.made)
    (hn : m.work.number = n) :
    m.children = childrenIn rules units n m.work.unit ((List.range n).map h.reportAt) := by
  rw [childrenIn]
  split
  case isTrue hcollects =>
    rw [ht.children_eq hm, ht.taken_eq_since hrules horderly m hm hcollects, hn]
    apply List.flatMap_congr
    intro v hv
    simp [issuesAt, since_lt hv, h.issuesOf_eq]
  case isFalse hcollects =>
    have hnone : m.taken = [] := by
      refine List.eq_nil_iff_forall_not_mem.2 fun d hd => ?_
      exact hcollects (ht.taken_owner m hm d hd).1
    rw [Made.children, hnone]
    rfl

theorem serialReports_eq (ht : Trace (.start rules options store units) h s)
    (hrules : rules.Aggregating) (horderly : Orderly units h.made)
    (hsettled : rules.Settled store) (hn : n ≤ s.nextOut) :
    (serialReports rules units n store).1 = (List.range n).map h.reportAt := by
  have hreport := ht.made_report hsettled
  obtain ⟨I, hstore, hsame⟩ := hsettled
  suffices h : (serialReports rules units n store).1 = (List.range n).map h.reportAt ∧
      I (serialReports rules units n store).2 from h.1
  induction n with
  | zero => exact ⟨rfl, hstore⟩
  | succ n ih =>
    obtain ⟨hbefore, hI⟩ := ih (by omega)
    -- the unit was made a report of, since that is out
    obtain ⟨m, hm, hnumber, -⟩ := ht.exists_made_of_out (Nat.lt_of_succ_le hn)
    obtain ⟨hu, hwork⟩ := ht.mem_handed (ht.handed_of_made hm)
    rw [hnumber] at hu hwork
    obtain ⟨hsame, hkeeps⟩ := hsame _ hI m.work.unit
      (childrenIn rules units n m.work.unit ((List.range n).map h.reportAt))
      (workOf units n m.work.unit).children
    rw [serialReports_of_some hu]
    simp only
    rw [hbefore]
    refine ⟨?_, hkeeps⟩
    rw [hsame, ← ht.children_eq_childrenIn hrules horderly hm hnumber, ← hwork, ← hreport m hm,
      ← ht.reportAt_of_made hm, hnumber, List.range_succ, List.map_append]
    rfl

theorem nextOut_of_finished (ht : Trace (.start rules options store units) h s)
    (hs : s.isFinished = true) : s.nextOut = s.nextNumber := by
  simp only [State.isFinished, Bool.and_eq_true, List.isEmpty_iff, Option.isNone_iff_eq_none,
    List.all_eq_true] at hs
  obtain ⟨⟨⟨hd, hworkers⟩, hresults⟩, hpending⟩ := hs
  refine Nat.le_antisymm ht.nextOut_le (Nat.le_of_not_lt fun hlt => ?_)
  have hfinished (w : Worker) (hw : w ∈ s.workers) : w = .finished := by
    have := hworkers w hw
    cases w <;> simp_all [Worker.isFinished]
  rcases mem_inFlight_of_waits hpending hresults (ht.nextOut_mem_inFlight hlt) with
    ⟨w, hw, report, hreport⟩ | ⟨w, hw, work, hheld, -⟩ | ⟨work, hmem, -⟩ | ⟨work, hwork, -⟩
  · rw [hfinished w hw] at hreport
    cases hreport
  · rw [hfinished w hw] at hheld
    cases hheld
  · obtain ⟨w, hw⟩ := ht.exists_worker
    rw [(ht.of_worker_finished (hfinished w hw ▸ hw)).2] at hmem
    cases hmem
  · cases hd' : s.dispatcher <;> simp_all [Dispatcher.isFinished, Dispatcher.work?]

theorem cancelled_of_finished (ht : Trace (.start rules options store units) h s)
    (hs : s.isFinished = true) :
    s.cancelled = decide (s.nextNumber < units.length) ∧
      (s.stopped = false → s.nextNumber = units.length) := by
  simp only [State.isFinished, Bool.and_eq_true] at hs
  cases hd : s.dispatcher with
  | finished cancelled =>
    obtain ⟨hunits, hstopped⟩ := ht.of_finished cancelled hd
    have hle := ht.nextNumber_le
    rw [ht.units_eq, ne_eq, List.drop_eq_nil_iff, Nat.not_le] at hunits
    constructor
    · rw [State.cancelled, hd]
      cases cancelled with
      | true =>
        rw [decide_eq_true (hunits.1 rfl)]
        rfl
      | false =>
        rw [decide_eq_false fun hlt => Bool.noConfusion (hunits.2 hlt)]
        rfl
    · intro hb
      refine Nat.le_antisymm hle (Nat.le_of_not_lt fun hlt => ?_)
      rw [hstopped (hunits.2 hlt)] at hb
      cases hb
  | _ => simp [hd, Dispatcher.isFinished] at hs

theorem result_eq_serial (ht : Trace (.start rules options store units) h s)
    (hrules : rules.Aggregating) (horderly : Orderly units h.made)
    (hsettled : rules.Settled store) (hs : s.isFinished = true) :
    s.result = serial rules store units s.nextNumber := by
  have hout := ht.nextOut_of_finished hs
  have hreports := ht.serialReports_eq hrules horderly hsettled (n := s.nextNumber)
    (Nat.le_of_eq hout.symm)
  rw [State.result, serial, (ht.cancelled_of_finished hs).1, ht.output_eq, ht.map_snd_emitted, hout,
    hreports]

end Trace

theorem rules_settled (plan : Plan) (grammar : Grammar) {store : Store} (hfixed : store.Fixed) :
    (Scan.rules plan grammar).Settled store :=
  ⟨Store.Asked store, .refl, fun _ hs unit children count =>
    ⟨unitReport_of_fixed hfixed hs, hs.trans (asked_unitReport plan grammar unit children count _)⟩⟩

/-- Each version comes before its package, and no unit comes twice. -/
structure PostOrdered (units : List ScanUnit) : Prop where
  nodup : (units.map (·.id)).Nodup
  above : units.Pairwise fun a b => b.liesBelow a.id = false

theorem PostOrdered.calm (h : PostOrdered units) (workers window : Nat) :
    Calm workers window units := by
  right
  rintro i j - ⟨hij, a, b, ha, hb, -, hkind⟩
  obtain ⟨hi, rfl⟩ := List.getElem?_eq_some_iff.1 ha
  obtain ⟨hj, rfl⟩ := List.getElem?_eq_some_iff.1 hb
  rcases hkind with hbelow | ⟨hid, -⟩
  · rw [List.pairwise_iff_getElem.1 h.above i j hi hj hij] at hbelow
    cases hbelow
  · have hne := List.pairwise_iff_getElem.1 (List.pairwise_map.1 h.nodup) i j hi hj hij
    exact hne hid.symm

theorem PostOrdered.packagesOnce (h : PostOrdered units) : PackagesOnce units := by
  unfold PackagesOnce
  apply (List.pairwise_map.1 h.nodup).imp
  intro a b hne _
  exact hne

theorem run_fst (plan : Plan) (grammar : Grammar) (options : Options) (units : List ScanUnit)
    (store : Store) : (Scan.run plan grammar options units store).1 =
      (State.start (Scan.rules plan grammar) options store units).run.result :=
  rfl

theorem run_eq_serial {store : Store} (plan : Plan) (grammar : Grammar) (hunits : PostOrdered units)
    (hfixed : store.Fixed) (hlimit : options.limit = none) :
    (Scan.run plan grammar options units store).1 =
      serial (Scan.rules plan grammar) store units units.length := by
  have hrules := rules_aggregating plan grammar
  obtain ⟨h, ht⟩ := Trace.run (Scan.rules plan grammar) options store units
  have hs : (State.start (Scan.rules plan grammar) options store units).run.isFinished = true :=
    run_isFinished hrules options store hunits.packagesOnce
  have hb : (State.start (Scan.rules plan grammar) options store units).run.stopped = false := by
    refine (runWithin_stopped hlimit _).trans ?_
    simp [State.start, hlimit]
  rw [run_fst, ← (ht.cancelled_of_finished hs).2 hb]
  exact ht.result_eq_serial hrules (ht.orderly_of_calm (hunits.calm _ _))
    (rules_settled plan grammar hfixed) hs

/-- So it is with the addons of the program, as long as their values are not kept between scans. -/
theorem run_builtin_eq_serial (plan : Plan) (grammar : Grammar) (hunits : PostOrdered units)
    (hlimit : options.limit = none) (files : FileTree) (root : String) (settings : AddonSettings)
    (load : Loader) :
    let store := Store.new Addon.builtin files root settings load none
    (Scan.run plan grammar options units store).1 =
      serial (Scan.rules plan grammar) store units units.length :=
  run_eq_serial plan grammar hunits ((Store.layered_builtin files root settings load).fixed rfl)
    hlimit

/--
Whatever turns the parties take, and whenever the scan is stopped: when it is finished its result is
that of going through the units one after the other, as far as they were given out. So a scan that
was stopped lets out the beginning of what one that was not stopped lets out.
-/
theorem schedule_independent {store : Store} {s : State Store} (plan : Plan) (grammar : Grammar)
    (hunits : PostOrdered units) (hfixed : store.Fixed)
    (ht : Trace (.start (Scan.rules plan grammar) options store units) h s)
    (hs : s.isFinished = true) :
    s.result = serial (Scan.rules plan grammar) store units s.nextNumber ∧
      s.nextNumber ≤ units.length ∧
      (s.result.summary.cancelled = true ↔ s.nextNumber < units.length) ∧
      (s.stopped = false → s.nextNumber = units.length) ∧
      ∀ options' h' t, Trace (.start (Scan.rules plan grammar) options' store units) h' t →
        t.isFinished = true → t.stopped = false → s.result.issues <+: t.result.issues := by
  have hrules := rules_aggregating plan grammar
  have hsettled := rules_settled plan grammar hfixed
  have hresult {options : Options} {h : History} {s : State Store}
      (ht : Trace (.start (Scan.rules plan grammar) options store units) h s)
      (hs : s.isFinished = true) :
      s.result = serial (Scan.rules plan grammar) store units s.nextNumber :=
    ht.result_eq_serial hrules (ht.orderly_of_calm (hunits.calm _ _)) hsettled hs
  obtain ⟨hcancelled, hall⟩ := ht.cancelled_of_finished hs
  refine ⟨hresult ht hs, ht.nextNumber_le, ?_, hall, fun options' h' t ht' ht'' hb => ?_⟩
  · rw [State.result, hcancelled]
    exact decide_eq_true_iff
  · rw [hresult ht hs, hresult ht' ht'', (ht'.cancelled_of_finished ht'').2 hb]
    exact serial_prefix _ _ ht.nextNumber_le (Nat.le_refl _)

theorem schedule_independent_loneVersion :
    (Scan.run tallyPlan unread ⟨2, 1, 2, none⟩ loneVersion bareStore).1 =
      ⟨[seen loneVersion[0], seen loneVersion[0]], ⟨2, 0, 0, 2, false⟩⟩ := by
  have hunits : PostOrdered loneVersion := ⟨by decide, by decide⟩
  let rules := Scan.rules tallyPlan unread
  let options : Options := ⟨2, 1, 2, none⟩
  obtain ⟨h, ht⟩ := Trace.run rules options bareStore loneVersion
  have hs : (State.start rules options bareStore loneVersion).run.isFinished = true :=
    run_isFinished (rules_aggregating tallyPlan unread) options bareStore hunits.packagesOnce
  have hb : (State.start rules options bareStore loneVersion).run.stopped = false :=
    runWithin_stopped rfl _
  obtain ⟨hresult, -, -, hall, -⟩ := schedule_independent tallyPlan unread hunits
    ((Store.layered_of_no_addons rfl rfl).fixed rfl) ht hs
  rw [run_fst, hresult, hall hb]
  rfl

end EbuildAudit.Scan
