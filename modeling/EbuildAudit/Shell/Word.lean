import EbuildAudit.Shell.Tree
import EbuildAudit.Text.Basic

/-!
A word of a script as a sequence of pieces: literal text, variables, and substitutions that could
stand for anything. The innermost quotes decide whether a piece is quoted.
-/

namespace EbuildAudit.Shell

inductive Piece
  | text (chars : List Char) (quoted : Bool) (node : NodeInfo)
  | var (name : String) (chars : List Char) (quoted : Bool) (node : NodeInfo)
  | substitution (quoted : Bool)
  deriving DecidableEq, Repr

def isExpansion (kind : String) : Bool :=
  kind == "simple_expansion" || kind == "expansion"

def isSubstitution (kind : String) : Bool :=
  kind == "command_substitution" || kind == "process_substitution" ||
    kind == "arithmetic_expansion"

def isDoubleQuoted (kind : String) : Bool :=
  kind == "string" || kind == "translated_string"

def isSingleQuoted (kind : String) : Bool :=
  kind == "raw_string" || kind == "ansi_c_string"

def isVariableName (kind : String) : Bool :=
  kind == "variable_name" || kind == "special_variable_name"

def openingLength (kind : String) : Nat :=
  if kind = "translated_string" then 2 else 1

def betweenQuotes (cs : List Char) : List Char :=
  match cs.dropWhile (· = '$') with
  | '\'' :: inner =>
    match inner.reverse with
    | '\'' :: back => back.reverse
    | _ => cs
  | _ => cs

def variableName (t : Tree) (children : List Node) : String :=
  match children.find? (isVariableName ·.kind) with
  | some n => t.text n.info
  | none => ""

def variablePiece (t : Tree) (quoted : Bool) (i : NodeInfo) (children : List Node) : Piece :=
  .var (variableName t children) (t.chars i) quoted i

def gap (t : Tree) (quoted : Bool) (i : NodeInfo) (start stop : Nat) : List Piece :=
  if start < stop then
    match Text.slice? t.source start stop with
    | some cs => [.text cs quoted i]
    | none => []
  else []

mutual

def Node.pieces (t : Tree) (quoted : Bool) : Node → List Piece
  | .node i children =>
    if isDoubleQuoted i.kind then
      let start := min (i.start + openingLength i.kind) i.stop
      let stop := max (i.stop - 1) start
      piecesBetween t true i start stop start children
    else if isSingleQuoted i.kind then [.text (betweenQuotes (t.chars i)) true i]
    else if isExpansion i.kind then
      variablePiece t quoted i children ::
        if i.kind = "expansion" then nestedVariablesOf t quoted children else []
    else if isSubstitution i.kind then [.substitution quoted]
    else
      match children with
      | [] => [.text (t.chars i) quoted i]
      | child :: children =>
        piecesBetween t quoted i i.start i.stop i.start (child :: children)

def piecesBetween (t : Tree) (quoted : Bool) (i : NodeInfo) (start stop position : Nat) :
    List Node → List Piece
  | [] => gap t quoted i position stop
  | child :: children =>
    if child.info.stop ≤ start || stop ≤ child.info.start then
      piecesBetween t quoted i start stop position children
    else
      gap t quoted i position child.info.start ++ child.pieces t quoted ++
        piecesBetween t quoted i start stop child.info.stop children

def Node.nestedVariables (t : Tree) (quoted : Bool) : Node → List Piece
  | .node i children =>
    if isExpansion i.kind then
      variablePiece t quoted i children ::
        if i.kind = "expansion" then nestedVariablesOf t quoted children else []
    else if isSubstitution i.kind then []
    else
      nestedVariablesOf t (quoted || isDoubleQuoted i.kind || isSingleQuoted i.kind) children

def nestedVariablesOf (t : Tree) (quoted : Bool) : List Node → List Piece
  | [] => []
  | n :: ns => n.nestedVariables t quoted ++ nestedVariablesOf t quoted ns

end

def flatten (t : Tree) (n : Node) : List Piece :=
  n.pieces t false

def literalMark : Char := '\x01'

def variableMark : Char := '\x02'

def substitutionMark : Char := '\x03'

/-- Unquoted text in which a backslash and the character after it become a mark. -/
def unescaped : List Char → List Char
  | '\\' :: _ :: cs => literalMark :: unescaped cs
  | ['\\'] => [literalMark]
  | c :: cs => c :: unescaped cs
  | [] => []

def Piece.skeleton : Piece → List Char
  | .text cs false _ => unescaped cs
  | .text _ true _ => [literalMark]
  | .var .. => [variableMark]
  | .substitution _ => [substitutionMark]

def isMark (c : Char) : Bool :=
  c == literalMark || c == variableMark || c == substitutionMark

inductive ClassState
  | closed
  | empty
  | filled
  deriving DecidableEq, Repr

def hasClass : ClassState → List Char → Bool
  | _, [] => false
  | state, c :: cs =>
    if isMark c then hasClass .closed cs
    else
      match state with
      | .closed => hasClass (if c = '[' then .empty else .closed) cs
      | .empty => hasClass .filled cs
      | .filled => c == ']' || hasClass .filled cs

def hasUnquotedGlob (pieces : List Piece) : Bool :=
  let skeleton := pieces.flatMap Piece.skeleton
  skeleton.any (fun c => c == '*' || c == '?') || hasClass .closed skeleton

end EbuildAudit.Shell
