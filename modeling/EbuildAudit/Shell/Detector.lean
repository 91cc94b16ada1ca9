import EbuildAudit.Issue
import EbuildAudit.Shell.Word
import EbuildAudit.Text.Basic
import EbuildAudit.Text.Character

namespace EbuildAudit.Shell

open Text

structure Finding where
  kind : String
  severity : Severity
  message : String
  line : Nat
  column : Nat
  deriving DecidableEq, Repr

def sensitiveVariables : List String :=
  ["DISTDIR", "PORTAGE_ACTUAL_DISTDIR"]

def pathVariables : List String :=
  ["D", "DISTDIR", "ED", "EPREFIX", "EROOT", "ESYSROOT", "FILESDIR", "HOME", "ROOT", "S", "SYSROOT",
    "T", "TMPDIR", "WORKDIR", "BROOT"]

def rootVariables : List String :=
  ["D", "ED", "ROOT", "EROOT", "BROOT", "SYSROOT", "ESYSROOT"]

def bannedCommands : List (String × Nat) :=
  [("dohtml", 7), ("dolib", 7), ("libopts", 7), ("einstall", 6), ("dosed", 4), ("dohard", 4)]

inductive Detector
  | unsafeGlob
  | unquotedVariable
  | missingSlash
  | unnecessarySlashStrip
  | bannedCommand
  deriving DecidableEq, Repr

structure Script where
  tree : Tree
  eapi : Option Nat

namespace Detector

def all : List Detector :=
  [.unsafeGlob, .unquotedVariable, .missingSlash, .unnecessarySlashStrip, .bannedCommand]

def kind : Detector → String
  | .unsafeGlob => "UnsafeGlob"
  | .unquotedVariable => "UnquotedVariable"
  | .missingSlash => "MissingSlash"
  | .unnecessarySlashStrip => "UnnecessarySlashStrip"
  | .bannedCommand => "BannedCommand"

def interests : Detector → List String
  | .unsafeGlob => ["command", "for_statement", "array"]
  | .unnecessarySlashStrip => ["expansion"]
  | _ => ["command"]

end Detector

def endsWith (ending s : String) : Bool :=
  ending.toList.reverse.isPrefixOf s.toList.reverse

def commandArgs (n : Node) : List Node :=
  ((n.namedChildren.dropWhile (·.kind != "command_name")).drop 1).filter fun c =>
    !endsWith "redirect" c.kind && c.kind != "comment"

def commandName? (t : Tree) (n : Node) : Option String :=
  (n.children.find? (·.kind == "command_name")).map fun c => t.text c.info

def globOperands (n : Node) : List Node :=
  if n.kind = "command" then commandArgs n
  else if n.kind = "for_statement" then n.children.filter (·.info.field == some "value")
  else if n.kind = "array" then n.namedChildren.filter (·.kind != "comment")
  else []

def Finding.ofNode (kind : String) (severity : Severity) (i : NodeInfo) (message : String) :
    Finding :=
  ⟨kind, severity, message, i.line, i.column⟩

def braced (name : String) : String :=
  "$\x7b" ++ name ++ "\x7d"

def sensitive? : Piece → Option String
  | .var name _ _ _ => if sensitiveVariables.contains name then some name else none
  | _ => none

def unsafeGlobs (t : Tree) (n : Node) : List Finding :=
  (globOperands n).filterMap fun arg => do
    let pieces := flatten t arg
    let name ← pieces.findSome? sensitive?
    if hasUnquotedGlob pieces then
      some (.ofNode "UnsafeGlob" .warning arg.info
        ("unquoted glob combined with " ++ braced name ++ ": " ++ t.text arg.info))
    else none

def unquotedVariable? : Piece → Option Finding
  | .var name _ false i =>
    if pathVariables.contains name then
      some (.ofNode "UnquotedVariable" .warning i ("unquoted path variable " ++ braced name))
    else none
  | _ => none

def unquotedVariables (t : Tree) (n : Node) : List Finding :=
  (commandArgs n).flatMap fun arg => (flatten t arg).filterMap unquotedVariable?

def isGlued (c : Char) : Bool :=
  isAlphanumeric c || c == '.' || c == '_' || c == '-'

/-- A root variable whose text has no percent sign, followed at once by a path component. -/
def missingSlash? : Piece × Piece → Option Finding
  | (.var name varText _ i, .text text _ _) =>
    if rootVariables.contains name && !varText.contains '%' && text.head?.any isGlued then
      some (.ofNode "MissingSlash" .warning i
        (braced name ++ " missing trailing slash before " ++ quoted (String.ofList text)))
    else none
  | _ => none

def neighbours (xs : List α) : List (α × α) :=
  xs.zip xs.tail

def missingSlashes (t : Tree) (n : Node) : List Finding :=
  (commandArgs n).flatMap fun arg => (neighbours (flatten t arg)).filterMap missingSlash?

def slashStripped? (text : String) : Option String := do
  stripEnd? "%/" (← stripEnd? "\x7d" (← stripStart? "$\x7b" text))

def slashStrips (s : Script) (n : Node) : List Finding :=
  match s.eapi with
  | none => []
  | some eapi =>
    if eapi < 7 then []
    else
      let text := s.tree.text n.info
      match slashStripped? text with
      | none => []
      | some name =>
        if rootVariables.contains name then
          [.ofNode "UnnecessarySlashStrip" .info n.info
            (text ++ " is unnecessary: " ++ braced name ++ " has no trailing slash")]
        else []

def banned (s : Script) (n : Node) : List Finding :=
  match s.eapi, commandName? s.tree n with
  | some eapi, some name =>
    match bannedCommands.lookup name with
    | some since =>
      if since ≤ eapi then
        [.ofNode "BannedCommand" .error n.info
          ("'" ++ name ++ "' is banned in EAPI " ++ toString eapi)]
      else []
    | none => []
  | _, _ => []

def Detector.inspect (s : Script) (n : Node) : Detector → List Finding
  | .unsafeGlob => unsafeGlobs s.tree n
  | .unquotedVariable => unquotedVariables s.tree n
  | .missingSlash => missingSlashes s.tree n
  | .unnecessarySlashStrip => slashStrips s n
  | .bannedCommand => banned s n

variable {t : Tree} {s : Script} {n : Node} {f : Finding} {d : Detector} {detectors : List Detector}

theorem kind_of_unsafeGlobs (h : f ∈ unsafeGlobs t n) : f.kind = "UnsafeGlob" := by
  obtain ⟨arg, -, harg⟩ := List.mem_filterMap.1 h
  obtain ⟨name, -, hname⟩ := Option.bind_eq_some_iff.1 harg
  split at hname
  · cases hname
    rfl
  · cases hname

theorem kind_of_unquotedVariables (h : f ∈ unquotedVariables t n) :
    f.kind = "UnquotedVariable" := by
  obtain ⟨arg, -, harg⟩ := List.mem_flatMap.1 h
  obtain ⟨piece, -, hpiece⟩ := List.mem_filterMap.1 harg
  rw [unquotedVariable?.eq_def] at hpiece
  split at hpiece
  · split at hpiece
    · cases hpiece
      rfl
    · cases hpiece
  · cases hpiece

theorem kind_of_missingSlashes (h : f ∈ missingSlashes t n) : f.kind = "MissingSlash" := by
  obtain ⟨arg, -, harg⟩ := List.mem_flatMap.1 h
  obtain ⟨pair, -, hpair⟩ := List.mem_filterMap.1 harg
  rw [missingSlash?.eq_def] at hpair
  split at hpair
  · split at hpair
    · cases hpair
      rfl
    · cases hpair
  · cases hpair

theorem kind_of_slashStrips (h : f ∈ slashStrips s n) : f.kind = "UnnecessarySlashStrip" := by
  simp only [slashStrips] at h
  split at h
  case h_1 => cases h
  case h_2 =>
    split at h
    case isTrue => cases h
    case isFalse =>
      split at h
      case h_1 => cases h
      case h_2 =>
        split at h
        case isTrue =>
          cases List.mem_singleton.1 h
          rfl
        case isFalse => cases h

theorem kind_of_banned (h : f ∈ banned s n) : f.kind = "BannedCommand" := by
  simp only [banned] at h
  split at h
  case h_1 =>
    split at h
    case h_1 =>
      split at h
      case isTrue =>
        cases List.mem_singleton.1 h
        rfl
      case isFalse => cases h
    case h_2 => cases h
  case h_2 => cases h

theorem Detector.kind_of_inspect (d : Detector) (h : f ∈ d.inspect s n) : f.kind = d.kind := by
  cases d with
  | unsafeGlob => exact kind_of_unsafeGlobs h
  | unquotedVariable => exact kind_of_unquotedVariables h
  | missingSlash => exact kind_of_missingSlashes h
  | unnecessarySlashStrip => exact kind_of_slashStrips h
  | bannedCommand => exact kind_of_banned h

/-- Whatever looks at nodes of some kinds and reports findings of one kind only. -/
structure Inspector where
  kind : String
  interests : List String
  inspect : Script → Node → List Finding
  kind_inspect : ∀ s n, ∀ f ∈ inspect s n, f.kind = kind

def Inspector.analyze (inspectors : List Inspector) (s : Script) : List Finding :=
  s.tree.root.descendants.flatMap fun n =>
    inspectors.flatMap fun i => if i.interests.contains n.kind then i.inspect s n else []

def Detector.inspector (d : Detector) : Inspector where
  kind := d.kind
  interests := d.interests
  inspect s n := d.inspect s n
  kind_inspect _ _ _ h := d.kind_of_inspect h

def analyze (detectors : List Detector) : Script → List Finding :=
  Inspector.analyze (detectors.map Detector.inspector)

theorem mem_analyze : f ∈ analyze detectors s ↔ ∃ n ∈ s.tree.root.descendants,
    ∃ d ∈ detectors, d.interests.contains n.kind = true ∧ f ∈ d.inspect s n := by
  simp only [analyze, Inspector.analyze, List.flatMap_map, List.mem_flatMap,
    List.mem_ite_nil_right]
  rfl

theorem kind_of_analyze (h : f ∈ analyze detectors s) : f.kind ∈ detectors.map Detector.kind := by
  obtain ⟨n, -, d, hd, -, hfound⟩ := mem_analyze.1 h
  rw [d.kind_of_inspect hfound]
  exact List.mem_map_of_mem hd

end EbuildAudit.Shell
