import EbuildAudit.Issue
import EbuildAudit.Json.Basic

namespace EbuildAudit.Report

inductive Style
  | red
  | yellow
  | blue
  | cyan
  | gray
  | bold
  deriving DecidableEq, Repr

def Style.start : Style → String
  | .red => "31"
  | .yellow => "33"
  | .blue => "34"
  | .cyan => "36"
  | .gray => "90"
  | .bold => "1"

def Style.reset : Style → String
  | .bold => "0"
  | _ => "39"

def Style.paint (style : Style) (s : String) : String :=
  "\x1b[" ++ style.start ++ "m" ++ s ++ "\x1b[" ++ style.reset ++ "m"

def paint (color : Bool) (styles : List Style) (s : String) : String :=
  if color then styles.foldl (fun s style => style.paint s) s else s

def icon : Severity → String
  | .error => "✖"
  | .warning => "▲"
  | .info => "◆"

def tag : Severity → String
  | .error => "⟦error⟧"
  | .warning => "⟦warn⟧"
  | .info => "⟦info⟧"

def tint : Severity → Style
  | .error => .red
  | .warning => .yellow
  | .info => .blue

def place (issue : Issue) : String :=
  match issue.location with
  | some loc => issue.unit ++ ":" ++ toString loc.line ++ ":" ++ toString loc.column
  | none => issue.unit

def rule (issue : Issue) : String :=
  "❲" ++ issue.check ++ "/" ++ issue.kind ++ "❳"

def issueLine (color : Bool) (issue : Issue) : String :=
  " ".intercalate [
    paint color [tint issue.severity] (icon issue.severity),
    paint color [tint issue.severity, .bold] (tag issue.severity),
    paint color [.bold] (place issue),
    paint color [.gray] (rule issue),
    issue.message]

def summaryLine (s : Summary) : String :=
  "Summary: errors=" ++ toString s.errors ++ " warnings=" ++ toString s.warnings ++
    " infos=" ++ toString s.infos ++ " units=" ++ toString s.units ++
    if s.cancelled then " (cancelled)" else ""

def humanText (color : Bool) (issues : List Issue) (summary : Summary) : String :=
  String.join (issues.map fun issue => issueLine color issue ++ "\n") ++
    paint color [.bold] (summaryLine summary) ++ "\n"

def locationJson (loc : Location) : Json :=
  .obj [("line", .ofNat loc.line), ("column", .ofNat loc.column)]

def issueJson (issue : Issue) : Json :=
  .obj <| [
    ("check", .str issue.check),
    ("kind", .str issue.kind),
    ("scope", .str issue.scope.name),
    ("unit", .str issue.unit),
    ("severity", .str issue.severity.name),
    ("message", .str issue.message)] ++
    issue.location.toList.map fun loc => ("location", locationJson loc)

def summaryJson (s : Summary) : Json :=
  .obj [
    ("units", .ofNat s.units),
    ("errors", .ofNat s.errors),
    ("warnings", .ofNat s.warnings),
    ("infos", .ofNat s.infos),
    ("cancelled", .bool s.cancelled)]

def jsonLine (j : Json) : String :=
  j.print ++ "\n"

def jsonText (issues : List Issue) (summary : Summary) : String :=
  String.join (issues.map fun issue => jsonLine (issueJson issue)) ++
    jsonLine (.obj [("summary", summaryJson summary)])

end EbuildAudit.Report
