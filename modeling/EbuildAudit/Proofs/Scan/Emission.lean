import EbuildAudit.Proofs.Scan.Serial

namespace EbuildAudit

def Summary.plus (s : Summary) (issues : List Issue) : Summary where
  units := s.units
  errors := s.errors + issues.countP (·.severity == .error)
  warnings := s.warnings + issues.countP (·.severity == .warning)
  infos := s.infos + issues.countP (·.severity == .info)
  cancelled := s.cancelled

theorem Summary.plus_append (s : Summary) (issues more : List Issue) :
    s.plus (issues ++ more) = (s.plus issues).plus more := by
  simp [plus, Nat.add_assoc]

theorem Summary.plus_cons (s : Summary) (issue : Issue) (issues : List Issue) :
    s.plus (issue :: issues) = (s.record issue).plus issues := by
  obtain ⟨check, kind, scope, unit, severity, message, location⟩ := issue
  cases severity <;> simp [plus, record, Nat.add_assoc, Nat.add_comm]

namespace Scan

/-- The notices that get out when notices of some checks are out already. -/
def firstNotices (noticed : List String) : List Issue → List Issue
  | [] => []
  | notice :: notices =>
    if noticed.contains notice.check then firstNotices noticed notices
    else notice :: firstNotices (notice.check :: noticed) notices

def noticedBelow (report : Nat → UnitReport) (n : Nat) : List String :=
  ((List.range n).flatMap fun k => (report k).notices).map (·.check)

def noticesAt (report : Nat → UnitReport) (n : Nat) : List Issue :=
  firstNotices (noticedBelow report n) (report n).notices

def emittedBelow (report : Nat → UnitReport) (n : Nat) : List Issue :=
  (List.range n).flatMap fun k => noticesAt report k ++ (report k).issues

variable {noticed other : List String} {notices issues : List Issue} {check : String}
  {report : Nat → UnitReport} {n : Nat} {o : Output}

theorem firstNotices_sublist (noticed : List String) (notices : List Issue) :
    (firstNotices noticed notices).Sublist notices := by
  induction notices generalizing noticed with
  | nil => exact .slnil
  | cons notice notices ih =>
    rw [firstNotices]
    split
    case isTrue => exact (ih noticed).cons notice
    case isFalse => exact (ih (notice.check :: noticed)).cons_cons notice

theorem filter_firstNotices (noticed : List String) (notices : List Issue) (check : String) :
    (firstNotices noticed notices).filter (·.check == check) =
      if check ∈ noticed then [] else (notices.find? (·.check == check)).toList := by
  induction notices generalizing noticed with
  | nil => simp [firstNotices]
  | cons notice notices ih =>
    rw [firstNotices, List.find?_cons]
    by_cases hcheck : notice.check = check
    · subst hcheck
      split
      case isTrue hnoticed =>
        have hmem : notice.check ∈ noticed := by simpa using hnoticed
        rw [ih, if_pos hmem, if_pos hmem]
      case isFalse hnoticed =>
        have hmem : notice.check ∉ noticed := by simpa using hnoticed
        simp [hmem, ih]
    · have hne : (notice.check == check) = false := by simpa using hcheck
      rw [hne]
      split
      case isTrue => exact ih noticed
      case isFalse => simp [hne, ih, Ne.symm hcheck]

theorem firstNotices_congr (h : ∀ check, check ∈ noticed ↔ check ∈ other)
    (notices : List Issue) : firstNotices noticed notices = firstNotices other notices := by
  induction notices generalizing noticed other with
  | nil => rfl
  | cons notice notices ih =>
    have hcons (check : String) :
        check ∈ notice.check :: noticed ↔ check ∈ notice.check :: other := by
      rw [List.mem_cons, List.mem_cons, h]
    have hcontains : noticed.contains notice.check = other.contains notice.check := by
      simp [h]
    rw [firstNotices, firstNotices, hcontains, ih h, ih hcons]

theorem mem_checks_firstNotices : check ∈ (firstNotices noticed notices).map (·.check) ↔
    check ∈ notices.map (·.check) ∧ check ∉ noticed := by
  have hmem (l : List Issue) :
      check ∈ l.map (·.check) ↔ l.filter (·.check == check) ≠ [] := by
    simp
  have hfind : (notices.find? (·.check == check)).toList ≠ [] ↔ check ∈ notices.map (·.check) := by
    rw [hmem, ne_eq, Option.toList_eq_nil_iff, List.find?_eq_none, ne_eq, List.filter_eq_nil_iff]
  rw [hmem, filter_firstNotices, ← hfind]
  by_cases hnoticed : check ∈ noticed <;> simp [hnoticed]

theorem noticedBelow_succ (report : Nat → UnitReport) (n : Nat) :
    noticedBelow report (n + 1) = noticedBelow report n ++ (report n).notices.map (·.check) := by
  simp [noticedBelow, List.range_succ]

theorem mem_noticedBelow : check ∈ noticedBelow report n ↔
    ∃ k < n, ∃ notice ∈ (report k).notices, notice.check = check := by
  simp only [noticedBelow, List.mem_map, List.mem_flatMap, List.mem_range]
  constructor
  · rintro ⟨notice, ⟨k, hk, hnotice⟩, hcheck⟩
    exact ⟨k, hk, notice, hnotice, hcheck⟩
  · rintro ⟨k, hk, notice, hnotice, hcheck⟩
    exact ⟨notice, ⟨k, hk, hnotice⟩, hcheck⟩

theorem emittedBelow_succ (report : Nat → UnitReport) (n : Nat) : emittedBelow report (n + 1) =
    emittedBelow report n ++ (noticesAt report n ++ (report n).issues) := by
  simp [emittedBelow, List.range_succ]

theorem filter_noticesAt (report : Nat → UnitReport) (n : Nat) (check : String) :
    (noticesAt report n).filter (·.check == check) =
      if ∃ k < n, ∃ notice ∈ (report k).notices, notice.check = check then []
      else ((report n).notices.find? (·.check == check)).toList := by
  rw [noticesAt, filter_firstNotices]
  simp only [mem_noticedBelow]

namespace Output

theorem foldl_emit (issues : List Issue) (o : Output) : issues.foldl emit o =
    ⟨o.noticed, issues.reverse ++ o.issues, o.summary.plus issues⟩ := by
  induction issues generalizing o with
  | nil => rfl
  | cons issue issues ih => rw [List.foldl_cons, ih, emit, Summary.plus_cons]; simp

theorem foldl_emitNotice (notices : List Issue) (o : Output) : notices.foldl emitNotice o =
    let first := firstNotices o.noticed notices
    ⟨(first.map (·.check)).reverse ++ o.noticed, first.reverse ++ o.issues,
      o.summary.plus first⟩ := by
  induction notices generalizing o with
  | nil => rfl
  | cons notice notices ih =>
    rw [List.foldl_cons, ih, emitNotice, firstNotices]
    split
    case isTrue => rfl
    case isFalse => simp [emit, Summary.plus_cons]

theorem emitReport_eq (o : Output) (report : UnitReport) : o.emitReport report =
    let first := firstNotices o.noticed report.notices
    let out := first ++ report.issues
    ⟨(first.map (·.check)).reverse ++ o.noticed, out.reverse ++ o.issues,
      { o.summary.plus out with units := o.summary.units + 1 }⟩ := by
  simp only [emitReport, foldl_emitNotice, foldl_emit, Summary.plus_append, List.reverse_append,
    List.append_assoc]
  rfl

theorem ofReports_concat (reports : List UnitReport) (report : UnitReport) :
    ofReports (reports ++ [report]) = (ofReports reports).emitReport report :=
  List.foldl_concat ..

theorem mem_noticed_ofReports (report : Nat → UnitReport) (n : Nat) (check : String) :
    check ∈ (ofReports ((List.range n).map report)).noticed ↔ check ∈ noticedBelow report n := by
  induction n with
  | zero => rfl
  | succ n ih =>
    have hor (p q : Prop) : p ∧ ¬q ∨ q ↔ q ∨ p := by tauto
    rw [List.range_succ, List.map_append, List.map_singleton, ofReports_concat, emitReport_eq,
      noticedBelow_succ]
    simp only [List.mem_append, List.mem_reverse, mem_checks_firstNotices]
    rw [ih, hor]

theorem ofReports_range (report : Nat → UnitReport) (n : Nat) :
    (ofReports ((List.range n).map report)).issues.reverse = emittedBelow report n ∧
      (ofReports ((List.range n).map report)).summary =
        { Summary.empty.plus (emittedBelow report n) with units := n } := by
  induction n with
  | zero => exact ⟨rfl, rfl⟩
  | succ n ih =>
    obtain ⟨hissues, hsummary⟩ := ih
    have hfirst : firstNotices (ofReports ((List.range n).map report)).noticed (report n).notices =
        noticesAt report n :=
      firstNotices_congr (mem_noticed_ofReports report n) _
    rw [List.range_succ, List.map_append, List.map_singleton, ofReports_concat, emitReport_eq,
      emittedBelow_succ, hfirst, Summary.plus_append]
    constructor
    · simp [← hissues]
    · simp [hsummary, Summary.plus]

end Output

end Scan

end EbuildAudit
