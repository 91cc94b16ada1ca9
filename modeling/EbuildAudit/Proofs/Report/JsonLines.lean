import EbuildAudit.Proofs.Json.Lines
import EbuildAudit.Report.Sink

namespace EbuildAudit

def Scope.ofName? (name : String) : Option Scope :=
  all.find? (·.name == name)

theorem Scope.ofName?_name (s : Scope) : ofName? s.name = some s := by
  cases s <;> rfl

def Severity.ofName? (name : String) : Option Severity :=
  [info, warning, error].find? (·.name == name)

theorem Severity.ofName?_name (s : Severity) : ofName? s.name = some s := by
  cases s <;> rfl

def Report.wordBound : Nat := 0x10000000000000000

def Location.Sized (loc : Location) : Prop :=
  loc.line < Report.wordBound ∧ loc.column < Report.wordBound

def Issue.Sized (issue : Issue) : Prop :=
  ∀ loc ∈ issue.location, loc.Sized

def Summary.Sized (s : Summary) : Prop :=
  s.units < Report.wordBound ∧ s.errors < Report.wordBound ∧ s.warnings < Report.wordBound ∧
    s.infos < Report.wordBound

namespace Report

def textOf? (j : Json) (name : String) : Option String := do
  (← j.field? name).asString?

def numberOf? (j : Json) (name : String) : Option Nat := do
  (← j.field? name).asNat? wordBound

def locationOf? (j : Json) : Option Location := do
  some ⟨← numberOf? j "line", ← numberOf? j "column"⟩

def placeOf? (j : Json) : Option (Option Location) :=
  match j.field? "location" with
  | none => some none
  | some loc => (locationOf? loc).map some

def issueOf? (j : Json) : Option Issue := do
  some {
    check := ← textOf? j "check"
    kind := ← textOf? j "kind"
    scope := ← Scope.ofName? (← textOf? j "scope")
    unit := ← textOf? j "unit"
    severity := ← Severity.ofName? (← textOf? j "severity")
    message := ← textOf? j "message"
    location := ← placeOf? j }

def summaryOf? (j : Json) : Option Summary := do
  some {
    units := ← numberOf? j "units"
    errors := ← numberOf? j "errors"
    warnings := ← numberOf? j "warnings"
    infos := ← numberOf? j "infos"
    cancelled := ← (← j.field? "cancelled").asBool? }

variable {issue : Issue} {s : Summary} {loc : Location} {n : Nat} {j : Json} {name : String}

theorem proper_ofNat (h : n < wordBound) : Json.Proper (.ofNat n) := by
  refine .int ?_
  simp only [Json.isWord, Bool.and_eq_true, decide_eq_true_eq]
  rw [wordBound] at h
  omega

theorem asNat?_ofNat (h : n < wordBound) : (Json.ofNat n).asNat? wordBound = some n := by
  have hbound : (n : Int) < (wordBound : Nat) := Int.ofNat_lt.2 h
  simp [Json.ofNat, Json.asNat?, hbound]

theorem numberOf?_eq_some (hn : n < wordBound) (h : j.field? name = some (.ofNat n)) :
    numberOf? j name = some n :=
  Option.bind_eq_some_iff.2 ⟨_, h, asNat?_ofNat hn⟩

theorem proper_locationJson (h : loc.Sized) : (locationJson loc).Proper := by
  have hnames : ["line", "column"].Nodup := by decide
  refine .obj hnames ?_
  simp only [List.forall_mem_cons]
  exact ⟨proper_ofNat h.1, proper_ofNat h.2, nofun⟩

theorem locationOf?_locationJson (h : loc.Sized) : locationOf? (locationJson loc) = some loc := by
  rw [locationOf?, numberOf?_eq_some h.1 rfl, numberOf?_eq_some h.2 rfl]
  rfl

theorem proper_issueJson (h : issue.Sized) : (issueJson issue).Proper := by
  obtain ⟨check, kind, scope, unit, severity, message, location⟩ := issue
  cases location with
  | none =>
    have hnames : ["check", "kind", "scope", "unit", "severity", "message"].Nodup := by decide
    refine .obj hnames ?_
    simp only [List.forall_mem_cons, List.append_nil, Option.toList_none, List.map_nil]
    exact ⟨.str _, .str _, .str _, .str _, .str _, .str _, nofun⟩
  | some loc =>
    have hnames : ["check", "kind", "scope", "unit", "severity", "message", "location"].Nodup := by
      decide
    refine .obj hnames ?_
    simp only [List.forall_mem_cons, List.cons_append, List.nil_append, Option.toList_some,
      List.map_cons, List.map_nil]
    exact ⟨.str _, .str _, .str _, .str _, .str _, .str _, proper_locationJson (h loc rfl), nofun⟩

theorem depth_issueJson (issue : Issue) : (issueJson issue).depth ≤ Json.depthLimit := by
  obtain ⟨check, kind, scope, unit, severity, message, location⟩ := issue
  cases location <;> simp [issueJson, locationJson, Json.depth, Json.depthFields, Json.ofNat,
    Json.depthLimit]

theorem field?_location (issue : Issue) :
    (issueJson issue).field? "location" = issue.location.map locationJson := by
  obtain ⟨check, kind, scope, unit, severity, message, location⟩ := issue
  cases location <;> rfl

theorem placeOf?_issueJson (h : issue.Sized) :
    placeOf? (issueJson issue) = some issue.location := by
  rw [placeOf?, field?_location]
  cases hloc : issue.location with
  | none => rfl
  | some loc =>
    rw [Option.map_some]
    simp only [locationOf?_locationJson (h loc hloc), Option.map_some]

theorem textOf?_issueJson (issue : Issue) :
    textOf? (issueJson issue) "check" = some issue.check ∧
      textOf? (issueJson issue) "kind" = some issue.kind ∧
      textOf? (issueJson issue) "scope" = some issue.scope.name ∧
      textOf? (issueJson issue) "unit" = some issue.unit ∧
      textOf? (issueJson issue) "severity" = some issue.severity.name ∧
      textOf? (issueJson issue) "message" = some issue.message :=
  ⟨rfl, rfl, rfl, rfl, rfl, rfl⟩

theorem issueOf?_issueJson (h : issue.Sized) : issueOf? (issueJson issue) = some issue := by
  obtain ⟨hcheck, hkind, hscope, hunit, hseverity, hmessage⟩ := textOf?_issueJson issue
  simp only [issueOf?, hcheck, hkind, hscope, hunit, hseverity, hmessage, placeOf?_issueJson h,
    Option.bind_eq_bind, Option.bind_some, Scope.ofName?_name, Severity.ofName?_name]

theorem proper_summaryJson (h : s.Sized) : (summaryJson s).Proper := by
  obtain ⟨hunits, herrors, hwarnings, hinfos⟩ := h
  have hnames : ["units", "errors", "warnings", "infos", "cancelled"].Nodup := by decide
  refine .obj hnames ?_
  simp only [List.forall_mem_cons]
  exact ⟨proper_ofNat hunits, proper_ofNat herrors, proper_ofNat hwarnings, proper_ofNat hinfos,
    .bool _, nofun⟩

theorem summaryOf?_summaryJson (h : s.Sized) : summaryOf? (summaryJson s) = some s := by
  obtain ⟨hunits, herrors, hwarnings, hinfos⟩ := h
  rw [summaryOf?, numberOf?_eq_some hunits rfl, numberOf?_eq_some herrors rfl,
    numberOf?_eq_some hwarnings rfl, numberOf?_eq_some hinfos rfl]
  rfl

def lineJson (issues : List Issue) (summary : Summary) : List Json :=
  issues.map issueJson ++ [.obj [("summary", summaryJson summary)]]

theorem proper_lineJson {issues : List Issue} (hissues : ∀ issue ∈ issues, issue.Sized)
    (hs : s.Sized) {j : Json} (hj : j ∈ lineJson issues s) :
    j.Proper ∧ j.depth ≤ Json.depthLimit := by
  rcases List.mem_append.1 hj with hj | hj
  · obtain ⟨issue, hissue, rfl⟩ := List.mem_map.1 hj
    exact ⟨proper_issueJson (hissues issue hissue), depth_issueJson issue⟩
  · obtain rfl := List.mem_singleton.1 hj
    have hnames : ["summary"].Nodup := by decide
    refine ⟨.obj hnames ?_, ?_⟩
    · simp only [List.forall_mem_cons]
      exact ⟨proper_summaryJson hs, nofun⟩
    · simp [summaryJson, Json.depth, Json.depthFields, Json.ofNat, Json.depthLimit]

theorem jsonText_eq (issues : List Issue) (summary : Summary) : jsonText issues summary =
    String.join (((lineJson issues summary).map Json.print).map (· ++ "\n")) := by
  simp [jsonText, lineJson, jsonLine, Function.comp_def]

/--
The report of `n` issues is `n + 1` lines, of which each is one JSON value. The lines give back the
issues in their order, with their locations if they have any, and the last one the summary.
-/
theorem jsonText_decodes (issues : List Issue) (summary : Summary)
    (hissues : ∀ issue ∈ issues, issue.Sized) (hsummary : summary.Sized) :
    ∃ lines : List String, lines.length = issues.length + 1 ∧
      jsonText issues summary = String.join (lines.map (· ++ "\n")) ∧
      (∀ line ∈ lines, '\n' ∉ line.toList) ∧
      (∀ (i : Nat) issue, issues[i]? = some issue → ∃ line j, lines[i]? = some line ∧
        Json.parse? line = some j ∧ issueOf? j = some issue ∧
          (j.field? "location" = none ↔ issue.location = none)) ∧
      ∃ line j, lines[issues.length]? = some line ∧ Json.parse? line = some j ∧
        (j.field? "summary").bind summaryOf? = some summary := by
  have hproper {j : Json} (hj : j ∈ lineJson issues summary) :=
    proper_lineJson hissues hsummary hj
  have hparse {j : Json} (hj : j ∈ lineJson issues summary) : Json.parse? j.print = some j := by
    rw [Json.parse?_print (hproper hj).1, if_pos (hproper hj).2]
  refine ⟨(lineJson issues summary).map Json.print, by simp [lineJson], jsonText_eq issues summary,
    fun line hline => ?_, fun i issue hissue => ?_, ?_⟩
  · obtain ⟨j, hj, rfl⟩ := List.mem_map.1 hline
    rw [Json.print, String.toList_ofList]
    exact ((hproper hj).1.visible).newline_not_mem
  · have hline : (lineJson issues summary)[i]? = some (issueJson issue) := by
      rw [lineJson, List.getElem?_append_left (by simpa using (List.getElem?_eq_some_iff.1 hissue).1),
        List.getElem?_map, hissue, Option.map_some]
    have hsized := hissues issue (List.mem_of_getElem? hissue)
    refine ⟨_, issueJson issue, by rw [List.getElem?_map, hline, Option.map_some],
      hparse (List.mem_of_getElem? hline), issueOf?_issueJson hsized, ?_⟩
    rw [field?_location, Option.map_eq_none_iff]
  · have hline : (lineJson issues summary)[issues.length]? =
        some (.obj [("summary", summaryJson summary)]) := by
      simp [lineJson]
    have hfield : (Json.obj [("summary", summaryJson summary)]).field? "summary" =
        some (summaryJson summary) := rfl
    refine ⟨_, _, by rw [List.getElem?_map, hline, Option.map_some],
      hparse (List.mem_of_getElem? hline), ?_⟩
    rw [hfield, Option.bind_some, summaryOf?_summaryJson hsummary]

def awkward : Issue where
  check := "\"Check\""
  kind := "\\n"
  scope := .package
  unit := "a/b\r\n"
  severity := .warning
  message := "\x01\nä\u2028"
  location := some ⟨2, 7⟩

theorem jsonText_decodes_awkward :
    (∀ issue ∈ [awkward, .new "" "" ⟨.repository, "", 0⟩ .info ""], issue.Sized) ∧
      Summary.empty.Sized ∧
        ∃ line j rest, jsonText [awkward, .new "" "" ⟨.repository, "", 0⟩ .info ""] .empty =
          line ++ "\n" ++ rest ∧ '\n' ∉ line.toList ∧ Json.parse? line = some j ∧
            issueOf? j = some awkward := by
  have hissues : ∀ issue ∈ [awkward, .new "" "" ⟨.repository, "", 0⟩ .info ""], issue.Sized := by
    simp [Issue.Sized, Location.Sized, awkward, Issue.new, wordBound]
  have hsummary : Summary.empty.Sized := by simp [Summary.Sized, Summary.empty, wordBound]
  obtain ⟨lines, -, htext, hlines, hdecoded, -⟩ := jsonText_decodes _ _ hissues hsummary
  obtain ⟨line, j, hline, hj, hissue, -⟩ := hdecoded 0 _ rfl
  refine ⟨hissues, hsummary, line, j, String.join (lines.tail.map (· ++ "\n")), ?_,
    hlines _ (List.mem_of_getElem? hline), hj, hissue⟩
  cases lines with
  | nil => cases hline
  | cons first rest =>
    cases hline
    rw [htext, List.map_cons, String.join_cons, List.tail_cons]

end Report

end EbuildAudit
