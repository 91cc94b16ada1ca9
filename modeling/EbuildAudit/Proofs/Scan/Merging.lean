import EbuildAudit.CommandLine.Program
import EbuildAudit.Proofs.Scan.Emission
import Mathlib.Order.Bounds.Basic

/-!
The merger. Whatever reports arrive, in whatever order and at whatever time, it lets out those with
the numbers before the first one that is missing, in the order of the numbers. The program tells by
its exit code whether there was an error among what was let out.
-/

namespace EbuildAudit.Scan

structure State.Brings (s : State σ) (brought : List (Nat × UnitReport)) (t : State σ) : Prop where
  results : t.results = s.results ++ brought
  pending : t.pending = s.pending
  nextOut : t.nextOut = s.nextOut
  output : t.output = s.output

/-- The states that the merger comes to by its own steps while reports arrive. -/
inductive Merging (s₀ : State σ) : List (Nat × UnitReport) → State σ → Prop
  | start : Merging s₀ [] s₀
  | bring : Merging s₀ arrived s → s.Brings brought t → Merging s₀ (arrived ++ brought) t
  | merge : Merging s₀ arrived s → s.stepMerger = some t → Merging s₀ arrived t

structure Merged (arrived emitted : List (Nat × UnitReport)) (s : State σ) : Prop where
  perm : (s.results ++ s.pending ++ emitted).Perm arrived
  numbers : emitted.map (·.1) = List.range s.nextOut
  output : s.output = .ofReports (emitted.map (·.2))

variable {rules : Rules σ} {options : Options} {store : σ} {units : List ScanUnit}
  {h : History} {s₀ s t : State σ} {arrived brought emitted : List (Nat × UnitReport)}

namespace Merged

theorem nodup_pending (hs : Merged arrived emitted s) (harrived : (arrived.map (·.1)).Nodup) :
    (s.pending.map (·.1)).Nodup := by
  have hkeys := (hs.perm.map (·.1)).nodup_iff.2 harrived
  simp only [List.map_append] at hkeys
  exact (List.nodup_append.1 (List.nodup_append.1 hkeys).1).2.1

theorem bring (hs : Merged arrived emitted s) (ht : s.Brings brought t) :
    Merged (arrived ++ brought) emitted t where
  perm := by
    have hperm := hs.perm
    simp only [List.perm_iff_count, List.count_append, ht.results, ht.pending] at hperm ⊢
    intro x
    specialize hperm x
    omega
  numbers := by rw [hs.numbers, ht.nextOut]
  output := by rw [ht.output, hs.output]

theorem step (hs : Merged arrived emitted s) (harrived : (arrived.map (·.1)).Nodup)
    (ht : s.stepMerger = some t) : ∃ emitted, Merged arrived emitted t := by
  have hperm := hs.perm
  have hstep := Step.of_merger (h := .empty) ht
  generalize History.empty.after s .merger = h at hstep
  cases hstep with
  | @emit report hp =>
    refine ⟨emitted ++ [(s.nextOut, report)], ?_, ?_, ?_⟩
    · have hpending := perm_cons_filter (hs.nodup_pending harrived) hp
      simp only [List.perm_iff_count, State.emitReport, List.count_append, List.count_cons,
        List.count_nil] at hperm hpending ⊢
      intro x
      specialize hperm x
      specialize hpending x
      omega
    · simp only [State.emitReport, List.map_append, hs.numbers, List.range_succ]
      rfl
    · rw [List.map_append, List.map_singleton, Output.ofReports_concat, ← hs.output]
      rfl
  | @receive result results _ hr =>
    refine ⟨emitted, ?_, hs.numbers, hs.output⟩
    rw [hr] at hperm
    simp only [List.perm_iff_count, List.count_append, List.count_cons] at hperm ⊢
    intro x
    specialize hperm x
    omega

theorem output_eq (hs : Merged arrived emitted s) (harrived : (arrived.map (·.1)).Nodup) :
    s.output = .ofReports ((List.range s.nextOut).map fun k =>
      (arrived.lookup k).getD .empty) := by
  rw [hs.output, ← hs.numbers, List.map_map]
  congr 1
  refine List.map_congr_left fun p hp => ?_
  have hmem : p ∈ arrived := hs.perm.mem_iff.1 (List.mem_append_right _ hp)
  rw [Function.comp_apply, lookup_of_mem harrived hmem]
  rfl

theorem mem_arrived (hs : Merged arrived emitted s) {k : Nat} (hk : k < s.nextOut) :
    k ∈ arrived.map (·.1) := by
  rw [← List.mem_range, ← hs.numbers] at hk
  obtain ⟨p, hp, rfl⟩ := List.mem_map.1 hk
  exact List.mem_map_of_mem (hs.perm.mem_iff.1 (List.mem_append_right _ hp))

theorem nextOut_missing (hs : Merged arrived emitted s) (hstuck : s.stepMerger = none) :
    s.nextOut ∉ arrived.map (·.1) := by
  obtain ⟨hpending, hresults⟩ := merger_waits hstuck
  intro hmem
  obtain ⟨p, hp, hnumber⟩ := List.mem_map.1 hmem
  rcases List.mem_append.1 (hs.perm.mem_iff.2 hp) with hp | hp
  · rw [hresults, List.nil_append] at hp
    exact not_mem_of_lookup hpending (hnumber ▸ List.mem_map_of_mem hp)
  · have hlt : p.1 ∈ List.range s.nextOut := by
      rw [← hs.numbers]
      exact List.mem_map_of_mem hp
    rw [List.mem_range] at hlt
    omega

end Merged

namespace Merging

theorem merged (hm : Merging (.start rules options store units) arrived s)
    (harrived : (arrived.map (·.1)).Nodup) : ∃ emitted, Merged arrived emitted s := by
  induction hm with
  | start => exact ⟨[], .nil, rfl, rfl⟩
  | bring _ ht ih =>
    rw [List.map_append, List.nodup_append] at harrived
    obtain ⟨emitted, hs⟩ := ih harrived.1
    exact ⟨emitted, hs.bring ht⟩
  | merge _ ht ih =>
    obtain ⟨emitted, hs⟩ := ih harrived
    exact hs.step harrived ht

theorem all_at_once (s : State σ) (arrived : List (Nat × UnitReport)) :
    Merging s arrived { s with results := s.results ++ arrived } :=
  .bring .start ⟨rfl, rfl, rfl, rfl⟩

theorem exists_stuck {s : State σ} (hm : Merging s₀ arrived s) :
    ∃ t, Merging s₀ arrived t ∧ t.stepMerger = none := by
  cases ht : s.stepMerger with
  | none => exact ⟨s, hm, ht⟩
  | some t =>
    have hlt : t.remaining < s.remaining :=
      (Step.of_merger (h := .empty) ht).remaining_lt (by simp)
    exact exists_stuck (hm.merge ht)
termination_by s.remaining

end Merging

/-- In a scan the other parties only bring reports to the merger. -/
theorem Trace.merging (ht : Trace (.start rules options store units) h s) :
    ∃ arrived, Merging (.start rules options store units) arrived s ∧
      (s.workers.filterMap Worker.report? ++ arrived).Perm (h.made.map Made.numbered) := by
  refine ht.invariant (I := fun h s => ∃ arrived,
    Merging (.start rules options store units) arrived s ∧
      (s.workers.filterMap Worker.report? ++ arrived).Perm (h.made.map Made.numbered))
    ⟨[], .start, by simp [State.start, History.empty, Worker.report?]⟩
    fun {h s p h' t} ht hI hs => ?_
  obtain ⟨arrived, hm, hperm⟩ := hI
  have hquiet (hbrings : s.Brings [] t) : Merging (.start rules options store units) arrived t := by
    simpa using hm.bring hbrings
  have hstep := hs.step?
  cases hs
  case emit | receive => exact ⟨arrived, hm.merge hstep, hperm⟩
  case send i number report hw =>
    refine ⟨arrived ++ [(number, report)], hm.bring ⟨rfl, rfl, rfl, rfl⟩, ?_⟩
    simp only [List.perm_iff_count, List.count_append] at hperm ⊢
    intro x
    have := count_filterMap_set Worker.report? hw .idle x
    specialize hperm x
    simp only [State.setWorker, Worker.report?, Option.toList, List.count_nil] at this ⊢
    omega
  case make i work taken hw hc =>
    refine ⟨arrived, hquiet ⟨(List.append_nil _).symm, rfl, rfl, rfl⟩, ?_⟩
    simp only [List.perm_iff_count, List.count_append] at hperm ⊢
    intro x
    have := count_filterMap_set Worker.report? hw (.depositing work (s.reportOf work taken).1) x
    specialize hperm x
    simp only [State.setWorker, List.map_append, List.count_append, Worker.report?, Option.toList,
      List.map_cons, List.map_nil, List.count_nil, Made.numbered] at this ⊢
    omega
  case take i work queue hw hq | quit i hw hq hd | put i work report hw =>
    refine ⟨arrived, hquiet ⟨(List.append_nil _).symm, rfl, rfl, rfl⟩, ?_⟩
    simp only [State.setWorker, State.deposit]
    rw [filterMap_set_of_eq hw]
    · exact hperm
    · rfl
  all_goals exact ⟨arrived, hquiet ⟨(List.append_nil _).symm, rfl, rfl, rfl⟩, hperm⟩

theorem code_runScan_iff {w : CommandLine.World} {a : CommandLine.ScanArguments} :
    (CommandLine.runScan w a).code = 1 ↔
      ∃ e p, Config.Effective.resolve w.files a.overrides = .ok e ∧
        CommandLine.prepare e a = .ok p ∧
          0 < (Scan.run p.plan w.grammar (.ofWorkers (e.jobs.getD w.workers))
            (p.source.units w.files) (CommandLine.store w e p.addons)).1.summary.errors := by
  unfold CommandLine.runScan
  cases Config.Effective.resolve w.files a.overrides with
  | error => simp
  | ok e =>
    cases hprepare : CommandLine.prepare e a with
    | error => simp [hprepare]
    | ok p =>
      simp only [Except.ok.injEq, exists_and_left, exists_eq_left', hprepare]
      generalize Scan.run p.plan w.grammar _ _ (CommandLine.store w e p.addons) = made
      obtain ⟨result, store⟩ := made
      simp [Nat.pos_iff_ne_zero]

theorem errors_run_pos (plan : Plan) (grammar : Grammar) (options : Options)
    (units : List ScanUnit) (store : Store) :
    0 < (Scan.run plan grammar options units store).1.summary.errors ↔
      ∃ issue ∈ (Scan.run plan grammar options units store).1.issues, issue.severity = .error := by
  obtain ⟨h, ht⟩ := Trace.run (Scan.rules plan grammar) options store units
  obtain ⟨hissues, hsummary⟩ := Output.ofReports_range h.reportAt
    (State.start (Scan.rules plan grammar) options store units).run.nextOut
  rw [run_fst, State.result, ht.output_eq, ht.map_snd_emitted, hissues]
  simp only [hsummary, Summary.plus, Summary.empty, Nat.zero_add, List.countP_pos_iff, beq_iff_eq]

/--
The merger, whatever reports arrive and when: by its own steps it comes to its end, and then those
before the first number that is missing are out, in the order of the numbers, each one's notices
before its issues. Of each check one notice is out, the first one of the first report that has any.
The summary counts what is out, so that the program says by its exit code whether there was an error.
-/
theorem merges_in_order (rules : Rules σ) (options : Options) (store : σ) (units : List ScanUnit)
    (arrived : List (Nat × UnitReport)) (harrived : (arrived.map (·.1)).Nodup) :
    (∃ m, IsLeast {k | k ∉ arrived.map (·.1)} m ∧
      let report k := (arrived.lookup k).getD .empty
      let out := (List.range m).flatMap fun k => noticesAt report k ++ (report k).issues
      (∃ s, Merging (.start rules options store units) arrived s) ∧
      (∀ s, Merging (.start rules options store units) arrived s →
        (∃ t, Merging s [] t ∧ t.stepMerger = none) ∧
        (s.stepMerger = none → s.output.issues.reverse = out ∧
          s.output.summary = ⟨m, out.countP (·.severity == .error),
            out.countP (·.severity == .warning), out.countP (·.severity == .info), false⟩)) ∧
      ∀ k, (noticesAt report k).Sublist (report k).notices ∧ ∀ check,
        (noticesAt report k).filter (·.check == check) =
          if ∃ j < k, ∃ notice ∈ (report j).notices, notice.check = check then []
          else ((report k).notices.find? (·.check == check)).toList) ∧
    ∀ w a, (CommandLine.runScan w a).code = 1 ↔
      ∃ e p, Config.Effective.resolve w.files a.overrides = .ok e ∧
        CommandLine.prepare e a = .ok p ∧
          ∃ issue ∈ (Scan.run p.plan w.grammar (.ofWorkers (e.jobs.getD w.workers))
            (p.source.units w.files) (CommandLine.store w e p.addons)).1.issues,
            issue.severity = .error := by
  have hleast {s : State σ} (hm : Merging (.start rules options store units) arrived s)
      (hstuck : s.stepMerger = none) : IsLeast {k | k ∉ arrived.map (·.1)} s.nextOut := by
    obtain ⟨emitted, hs⟩ := hm.merged harrived
    refine ⟨hs.nextOut_missing hstuck, fun k hk => Nat.le_of_not_lt fun hlt => ?_⟩
    exact hk (hs.mem_arrived hlt)
  have hm := Merging.all_at_once (.start rules options store units) arrived
  constructor
  · obtain ⟨s, hs, hstuck⟩ := hm.exists_stuck
    refine ⟨s.nextOut, hleast hs hstuck, ⟨_, hm⟩, fun t ht => ⟨Merging.start.exists_stuck, ?_⟩,
      fun k => ⟨firstNotices_sublist _ _, filter_noticesAt _ k⟩⟩
    intro htstuck
    have hnext : t.nextOut = s.nextOut := (hleast ht htstuck).unique (hleast hs hstuck)
    obtain ⟨emitted, hmerged⟩ := ht.merged harrived
    obtain ⟨hissues, hsummary⟩ :=
      Output.ofReports_range (fun k => (arrived.lookup k).getD .empty) s.nextOut
    rw [hmerged.output_eq harrived, hnext, hissues, hsummary]
    exact ⟨rfl, by simp [Summary.plus, Summary.empty, emittedBelow]⟩
  · intro w a
    simp only [code_runScan_iff, errors_run_pos]

def skipping (name : String) : UnitReport where
  notices := [.new "Sighting" "SkippedCheck" ⟨.category name, name, 0⟩ .info "skipped"]
  issues := [.new "Sighting" "Seen" ⟨.category name, name, 0⟩ .warning "seen"]

theorem merges_in_order_gap :
    let arrived := [(1, skipping "b"), (0, skipping "a"), (3, skipping "d")]
    (arrived.map (·.1)).Nodup ∧
      ∃ s, Merging (.start (Scan.rules tallyPlan unread) ⟨1, 1, 1, none⟩ bareStore []) arrived s ∧
        s.output.issues.reverse =
          (skipping "a").notices ++ (skipping "a").issues ++ (skipping "b").issues ∧
        s.output.summary = ⟨2, 0, 2, 1, false⟩ := by
  intro arrived
  have harrived : (arrived.map (·.1)).Nodup := by decide
  obtain ⟨⟨m, hleast, -, hmerged, -⟩, -⟩ := merges_in_order (Scan.rules tallyPlan unread)
    ⟨1, 1, 1, none⟩ bareStore [] arrived harrived
  have hm : m = 2 := by
    refine hleast.unique ⟨by decide, fun k hk => Nat.le_of_not_lt fun hlt => hk ?_⟩
    obtain rfl | rfl : k = 0 ∨ k = 1 := by omega
    all_goals decide
  subst hm
  obtain ⟨s, hs, hstuck⟩ := (Merging.all_at_once _ arrived).exists_stuck
  obtain ⟨hissues, hsummary⟩ := (hmerged s hs).2 hstuck
  exact ⟨harrived, s, hs, hissues, hsummary⟩

end EbuildAudit.Scan
