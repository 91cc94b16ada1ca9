import EbuildAudit.Check.Shell
import EbuildAudit.Proofs.Json.Lines
import EbuildAudit.Proofs.Shell.Detection
import EbuildAudit.Proofs.Text.Pieces
import EbuildAudit.Report.Sink
import EbuildAudit.Shell.Parser
import Mathlib.Algebra.BigOperators.Group.List.Basic
import Mathlib.Algebra.Ring.Nat

namespace EbuildAudit

namespace Text

variable {s t : String} {lines : List String}

def feeds (s : String) : Nat :=
  s.toList.count '\n'

theorem feeds_append (s t : String) : feeds (s ++ t) = feeds s + feeds t := by
  rw [feeds, String.toList_append, List.count_append, feeds, feeds]

theorem feeds_eq_zero_iff : feeds s = 0 ↔ '\n' ∉ s.toList :=
  List.count_eq_zero

theorem feeds_join (lines : List String) : feeds (String.join lines) = (lines.map feeds).sum := by
  rw [feeds, String.toList_join, List.count_flatMap]
  rfl

theorem feeds_ended (lines : List String) :
    feeds (String.join (lines.map (· ++ "\n"))) = lines.length + (lines.map feeds).sum := by
  induction lines with
  | nil => rfl
  | cons line lines ih =>
    have hend : feeds "\n" = 1 := by decide
    rw [List.map_cons, String.join_cons, feeds_append, feeds_append, hend, ih, List.map_cons,
      List.sum_cons, List.length_cons]
    omega

theorem splitOn_ended_iff : splitOn '\n' (String.join (lines.map (· ++ "\n"))) = lines ++ [""] ↔
    ∀ line ∈ lines, feeds line = 0 := by
  constructor
  · intro h line hline
    have hpiece : line ∈ splitOn '\n' (String.join (lines.map (· ++ "\n"))) :=
      h ▸ List.mem_append_left _ hline
    exact feeds_eq_zero_iff.2 (not_mem_toList_of_mem_splitOn hpiece)
  · intro h
    induction lines with
    | nil => rfl
    | cons line lines ih =>
      rw [List.forall_mem_cons] at h
      have hchars (rest : String) : (line ++ "\n" ++ rest).toList =
          line.toList ++ '\n' :: rest.toList := by simp
      rw [splitOn, List.map_cons, String.join_cons, hchars, List.splitOn_append_cons_self,
        List.splitOn_eq_singleton (feeds_eq_zero_iff.1 h.1), List.singleton_append, List.map_cons,
        String.ofList_toList, ← splitOn, ih h.2, List.cons_append]

theorem feeds_toString (n : Nat) : feeds (toString n) = 0 := by
  have hdigits : (toString n).toList = Nat.toDigits 10 n := Json.toList_toString_ofNat n
  rw [feeds_eq_zero_iff, hdigits]
  exact (Json.visible_toDigits n).newline_not_mem

theorem feeds_hexText (n : Nat) : feeds (hexText n) = 0 := by
  rw [feeds_eq_zero_iff, hexText, String.toList_ofList]
  induction n using Nat.strongRecOn with
  | ind n ih =>
    have hdigit : ∀ n < 16, n.digitChar ≠ '\n' := by decide
    rw [Nat.toDigits_eq_if (by decide)]
    split
    case isTrue hlt => simp [(hdigit n hlt).symm]
    case isFalse hge =>
      rw [List.mem_append, List.mem_singleton, not_or]
      exact ⟨ih (n / 16) (by omega), (hdigit (n % 16) (Nat.mod_lt n (by decide))).symm⟩

theorem feeds_quotedChar (c : Char) : feeds (quotedChar c) = 0 := by
  rw [quotedChar.eq_def]
  split
  case h_7 hfeed _ _ =>
    split
    · rw [feeds_eq_zero_iff]
      simpa using fun h => hfeed h.symm
    · have hopen : feeds "\\u\x7b" = 0 := by decide
      have hclose : feeds "\x7d" = 0 := by decide
      rw [feeds_append, feeds_append, hopen, hclose, feeds_hexText]
  all_goals decide

theorem feeds_quoted (s : String) : feeds (quoted s) = 0 := by
  have hquote : feeds "\"" = 0 := by decide
  have hchars : feeds (String.join (s.toList.map quotedChar)) = 0 := by
    rw [feeds_join, List.map_map, List.sum_eq_zero]
    intro n hn
    obtain ⟨c, -, rfl⟩ := List.mem_map.1 hn
    exact feeds_quotedChar c
  rw [quoted, feeds_append, feeds_append, hquote, hchars]

end Text

open Text (feeds feeds_append feeds_eq_zero_iff feeds_toString feeds_quoted)

namespace Shell

variable {t : Tree} {s : Script} {n : Node} {f : Finding} {detectors : List Detector}

theorem feeds_braced (name : String) : feeds (braced name) = feeds name := by
  have hopen : feeds "$\x7b" = 0 := by decide
  have hclose : feeds "\x7d" = 0 := by decide
  rw [braced, feeds_append, feeds_append, hopen, hclose, Nat.zero_add, Nat.add_zero]

theorem feeds_of_sensitive? {piece : Piece} {name : String} (h : sensitive? piece = some name) :
    feeds name = 0 := by
  have hnames : ∀ name ∈ sensitiveVariables, feeds name = 0 := by decide
  rw [sensitive?.eq_def] at h
  split at h
  · split at h
    case isTrue hname =>
      cases h
      exact hnames _ (List.contains_iff_mem.1 hname)
    case isFalse => cases h
  · cases h

theorem feeds_of_unsafeGlobs (h : f ∈ unsafeGlobs t n) :
    ∃ arg ∈ globOperands n, feeds f.message = feeds (t.text arg.info) := by
  obtain ⟨arg, harg, hfound⟩ := List.mem_filterMap.1 h
  obtain ⟨name, hname, hfound⟩ := Option.bind_eq_some_iff.1 hfound
  obtain ⟨piece, -, hsensitive⟩ := List.exists_of_findSome?_eq_some hname
  refine ⟨arg, harg, ?_⟩
  have hwith : feeds "unquoted glob combined with " = 0 := by decide
  have hcolon : feeds ": " = 0 := by decide
  split at hfound
  · cases hfound
    simp only [Finding.ofNode, feeds_append, feeds_braced, feeds_of_sensitive? hsensitive, hwith,
      hcolon, Nat.zero_add]
  · cases hfound

theorem feeds_of_unquotedVariables (h : f ∈ unquotedVariables t n) : feeds f.message = 0 := by
  have hnames : ∀ name ∈ pathVariables, feeds name = 0 := by decide
  have hvariable : feeds "unquoted path variable " = 0 := by decide
  obtain ⟨arg, -, harg⟩ := List.mem_flatMap.1 h
  obtain ⟨piece, -, hpiece⟩ := List.mem_filterMap.1 harg
  rw [unquotedVariable?.eq_def] at hpiece
  split at hpiece
  · split at hpiece
    case isTrue hname =>
      cases hpiece
      simp only [Finding.ofNode, feeds_append, feeds_braced, hvariable,
        hnames _ (List.contains_iff_mem.1 hname)]
    case isFalse => cases hpiece
  · cases hpiece

theorem feeds_of_rootVariable {name : String} (h : rootVariables.contains name) :
    feeds name = 0 := by
  have hnames : ∀ name ∈ rootVariables, feeds name = 0 := by decide
  exact hnames name (List.contains_iff_mem.1 h)

theorem feeds_of_missingSlashes (h : f ∈ missingSlashes t n) : feeds f.message = 0 := by
  have hbefore : feeds " missing trailing slash before " = 0 := by decide
  obtain ⟨arg, -, harg⟩ := List.mem_flatMap.1 h
  obtain ⟨pair, -, hpair⟩ := List.mem_filterMap.1 harg
  rw [missingSlash?.eq_def] at hpair
  split at hpair
  · split at hpair
    case isTrue hname =>
      cases hpair
      simp only [Bool.and_eq_true] at hname
      simp only [Finding.ofNode, feeds_append, feeds_braced, hbefore, feeds_quoted,
        feeds_of_rootVariable hname.1.1]
    case isFalse => cases hpair
  · cases hpair

theorem eq_of_slashStripped? {text name : String} (h : slashStripped? text = some name) :
    text = braced (name ++ "%/") := by
  obtain ⟨opened, hopened, h⟩ := Option.bind_eq_some_iff.1 h
  obtain ⟨closed, hclosed, h⟩ := Option.bind_eq_some_iff.1 h
  rw [Text.stripStart?_eq_some_iff] at hopened
  rw [Text.stripEnd?_eq_some_iff] at hclosed h
  rw [hopened, hclosed, h, braced, ← String.append_assoc]

theorem feeds_of_slashStripped? {text name : String} (h : slashStripped? text = some name) :
    feeds text = feeds name := by
  have hstrip : feeds "%/" = 0 := by decide
  rw [eq_of_slashStripped? h, feeds_braced, feeds_append, hstrip, Nat.add_zero]

theorem feeds_of_slashStrips (h : f ∈ slashStrips s n) : feeds f.message = 0 := by
  have hunnecessary : feeds " is unnecessary: " = 0 := by decide
  have htrailing : feeds " has no trailing slash" = 0 := by decide
  simp only [slashStrips] at h
  split at h
  case h_1 => cases h
  case h_2 =>
    split at h
    case isTrue => cases h
    case isFalse =>
      split at h
      case h_1 => cases h
      case h_2 hname =>
        split at h
        case isTrue hroot =>
          cases List.mem_singleton.1 h
          simp only [Finding.ofNode, feeds_append, feeds_braced, hunnecessary, htrailing,
            feeds_of_slashStripped? hname, feeds_of_rootVariable hroot]
        case isFalse => cases h

theorem feeds_of_banned (h : f ∈ banned s n) : feeds f.message = 0 := by
  have hnames : ∀ command ∈ bannedCommands, feeds command.1 = 0 := by decide
  have hquote : feeds "'" = 0 := by decide
  have hbanned : feeds "' is banned in EAPI " = 0 := by decide
  simp only [banned] at h
  split at h
  case h_1 =>
    split at h
    case h_1 hsince =>
      obtain ⟨before, after, hcommands, -⟩ := List.lookup_eq_some_iff.1 hsince
      split at h
      case isTrue =>
        cases List.mem_singleton.1 h
        simp only [Finding.ofNode, feeds_append, feeds_toString, hquote, hbanned,
          hnames _ (hcommands ▸ List.mem_append_right before List.mem_cons_self)]
      case isFalse => cases h
    case h_2 => cases h
  case h_2 => cases h

theorem feeds_of_inspect (d : Detector) (h : f ∈ d.inspect s n) : feeds f.message = 0 ∨
    d = .unsafeGlob ∧ ∃ arg ∈ globOperands n, feeds f.message = feeds (s.tree.text arg.info) := by
  cases d with
  | unsafeGlob => exact .inr ⟨rfl, feeds_of_unsafeGlobs h⟩
  | unquotedVariable => exact .inl (feeds_of_unquotedVariables h)
  | missingSlash => exact .inl (feeds_of_missingSlashes h)
  | unnecessarySlashStrip => exact .inl (feeds_of_slashStrips h)
  | bannedCommand => exact .inl (feeds_of_banned h)

theorem feeds_of_analyze (h : f ∈ analyze detectors s) : feeds f.message = 0 ∨
    f.kind = Detector.kind .unsafeGlob ∧ ∃ n ∈ s.tree.root.descendants,
      ∃ arg ∈ globOperands n, feeds f.message = feeds (s.tree.text arg.info) := by
  obtain ⟨n, hn, d, -, -, hfound⟩ := mem_analyze.1 h
  rcases feeds_of_inspect d hfound with hnone | ⟨rfl, hquoted⟩
  · exact .inl hnone
  · exact .inr ⟨Detector.kind_of_inspect _ hfound, n, hn, hquoted⟩

end Shell

/-- The line feeds in the texts of an issue that a reader sees. -/
def Issue.feeds (issue : Issue) : Nat :=
  Text.feeds issue.unit + Text.feeds issue.check + Text.feeds issue.kind + Text.feeds issue.message

namespace Report

variable {color : Bool} {issue : Issue} {issues : List Issue} {summary : Summary}

theorem feeds_paint (color : Bool) (styles : List Style) (s : String) :
    feeds (paint color styles s) = feeds s := by
  have hstyle (style : Style) (s : String) : feeds (style.paint s) = feeds s := by
    have hescape : feeds "\x1b[" = 0 := by decide
    have hend : feeds "m" = 0 := by decide
    have hstart : feeds style.start = 0 := by cases style <;> decide
    have hreset : feeds style.reset = 0 := by cases style <;> decide
    simp only [Style.paint, feeds_append, hescape, hend, hstart, hreset, Nat.zero_add, Nat.add_zero]
  rw [paint]
  split
  · induction styles generalizing s with
    | nil => rfl
    | cons style styles ih => rw [List.foldl_cons, ih, hstyle]
  · rfl

theorem feeds_place (issue : Issue) : feeds (place issue) = feeds issue.unit := by
  have hcolon : feeds ":" = 0 := by decide
  rw [place]
  split
  · simp only [feeds_append, feeds_toString, hcolon, Nat.add_zero]
  · rfl

theorem feeds_rule (issue : Issue) : feeds (rule issue) = feeds issue.check + feeds issue.kind := by
  have hopen : feeds "❲" = 0 := by decide
  have hslash : feeds "/" = 0 := by decide
  have hclose : feeds "❳" = 0 := by decide
  simp only [rule, feeds_append, hopen, hslash, hclose]
  omega

theorem feeds_issueLine (color : Bool) (issue : Issue) :
    feeds (issueLine color issue) = issue.feeds := by
  have hicon : feeds (icon issue.severity) = 0 := by cases issue.severity <;> decide
  have htag : feeds (tag issue.severity) = 0 := by cases issue.severity <;> decide
  have hblank : feeds " " = 0 := by decide
  have hparts (a b c d e : String) : " ".intercalate [a, b, c, d, e] =
      a ++ " " ++ b ++ " " ++ c ++ " " ++ d ++ " " ++ e := rfl
  rw [issueLine, hparts, Issue.feeds]
  simp only [feeds_append, feeds_paint, hblank, hicon, htag, feeds_place, feeds_rule]
  omega

theorem feeds_summaryLine (summary : Summary) : feeds (summaryLine summary) = 0 := by
  have herrors : feeds "Summary: errors=" = 0 := by decide
  have hwarnings : feeds " warnings=" = 0 := by decide
  have hinfos : feeds " infos=" = 0 := by decide
  have hunits : feeds " units=" = 0 := by decide
  have hcancelled : feeds (if summary.cancelled then " (cancelled)" else "") = 0 := by
    split <;> decide
  unfold summaryLine
  simp only [feeds_append, feeds_toString, herrors, hwarnings, hinfos, hunits, hcancelled]

def humanLines (color : Bool) (issues : List Issue) (summary : Summary) : List String :=
  issues.map (issueLine color) ++ [paint color [.bold] (summaryLine summary)]

theorem humanText_eq (color : Bool) (issues : List Issue) (summary : Summary) :
    humanText color issues summary =
      String.join ((humanLines color issues summary).map (· ++ "\n")) := by
  simp [humanText, humanLines, Function.comp_def, String.append_assoc]

theorem length_humanLines :
    (humanLines color issues summary).length = issues.length + 1 := by
  rw [humanLines, List.length_append, List.length_map, List.length_singleton]

theorem map_feeds_humanLines : (humanLines color issues summary).map feeds =
    issues.map Issue.feeds ++ [0] := by
  rw [humanLines, List.map_append, List.map_map, List.map_singleton, feeds_paint,
    feeds_summaryLine]
  exact congrArg (· ++ [0]) (List.map_congr_left fun issue _ => feeds_issueLine color issue)

/--
The report is the lines of the issues and of the summary, one after the other, if and only if none
of the issues has a line feed. Each line feed that one has adds a line. What is found in scripts
has none, apart from those in the words that findings of unsafe patterns quote.
-/
theorem humanText_lines_iff (color : Bool) (issues : List Issue) (summary : Summary) :
    feeds (humanText color issues summary) = issues.length + 1 + (issues.map Issue.feeds).sum ∧
      (Text.splitOn '\n' (humanText color issues summary) =
          humanLines color issues summary ++ [""] ↔ ∀ issue ∈ issues, issue.feeds = 0) ∧
      ∀ (detectors : List Shell.Detector) (s : Shell.Script), ∀ f ∈ Shell.analyze detectors s,
        feeds f.message = 0 ∨ f.kind = Shell.Detector.kind .unsafeGlob ∧
          ∃ n ∈ s.tree.root.descendants, ∃ arg ∈ Shell.globOperands n,
            feeds f.message = feeds (s.tree.text arg.info) := by
  refine ⟨?_, ?_, fun detectors s f => Shell.feeds_of_analyze⟩
  · rw [humanText_eq, Text.feeds_ended, length_humanLines, map_feeds_humanLines, List.sum_append,
      List.sum_singleton, add_zero]
  · have hzero : (∀ line ∈ humanLines color issues summary, feeds line = 0) ↔
        ∀ n ∈ issues.map Issue.feeds ++ [0], n = 0 := by
      rw [← map_feeds_humanLines, List.forall_mem_map]
    rw [humanText_eq, Text.splitOn_ended_iff, hzero, List.forall_mem_append, List.forall_mem_map,
      List.forall_mem_singleton, and_iff_left rfl]

def brokenRemoval : Except Shell.ParseFailure (List Issue) :=
  (Shell.parse "rm \"\n$DISTDIR\"/*").map fun tree =>
    (Shell.analyze [.unsafeGlob] ⟨tree, some 8⟩).map
      (Check.ofFinding "GlobCheck" ⟨.version "a" "p" "1", "/a/p/p-1.ebuild", 0⟩)

theorem humanText_brokenRemoval :
    (brokenRemoval.map fun issues => (issues.length,
        Text.splitOn '\n' (humanText false issues ⟨1, 0, 1, 0, false⟩))) =
      .ok (1, ["▲ ⟦warn⟧ a/p-1:1:4 ❲GlobCheck/UnsafeGlob❳ unquoted glob combined with " ++
          "$\x7bDISTDIR\x7d: \"", "$DISTDIR\"/*",
        "Summary: errors=0 warnings=1 infos=0 units=1", ""]) := by
  simp only [brokenRemoval, Shell.analyze, Shell.Inspector.analyze_eq]
  decide +kernel

end Report

end EbuildAudit
