import EbuildAudit.Shell.Phrase.Expression

namespace EbuildAudit.Shell.Phrase

open Lexeme

def array : Phrase :=
  .node "array" true (mark "(" ++ .many (gap ++ literal) ++ gap ++ mark ")")

def assignedValue : Phrase :=
  array <|> literal <|> leaf "word" (wordOf fun _ => true) <|>
    .ahead (oneOf (fun c => isSpace c || c == ';' || c == '&') <|> finish)

def assignment : Phrase :=
  .node "variable_assignment" true
    (.field "name" (subscript <|> variableName) ++ (mark "+=" <|> mark "=") ++
      .field "value" assignedValue)

def plainLiteral : Phrase :=
  .notAhead (.lexeme descriptor) ++ literal

def fileDescriptor : Phrase :=
  .opt (.field "descriptor" (leaf "file_descriptor" descriptor))

def fileRedirect (destination : Phrase) : Phrase :=
  .node "file_redirect" true
    (fileDescriptor ++
      ((oneOfMarks ["<&-", ">&-"] ++ .opt (space ++ .field "destination" plainLiteral)) <|>
        (.notAhead (text "<(" <|> text ">(" <|> text "<<") ++
          oneOfMarks ["&>>", "&>", "<&", ">&", ">>", ">|", "<", ">"] ++ space ++
          .field "destination" destination)))

def leadingRedirect : Phrase :=
  .field "redirect" (fileRedirect plainLiteral)

def trailingRedirect : Phrase :=
  fileRedirect (plainLiteral ++ .many (space ++ plainLiteral))

def herestring : Phrase :=
  .node "herestring_redirect" true (fileDescriptor ++ mark "<<<" ++ space ++ literal)

def documentEnd : List Char → List Char
  | '\\' :: c :: rest => c :: documentEnd rest
  | c :: rest => if c == '\'' || c == '"' then documentEnd rest else c :: documentEnd rest
  | [] => []

def documentBody (indented : Bool) (opening : List Char) : Phrase :=
  let quoted := opening.any fun c => c == '\'' || c == '"' || c == '\\'
  let stop := .node "heredoc_end" true
    ((if indented then .opt (.lexeme (while1 isSpace)) else .empty) ++
      text (String.ofList (documentEnd opening)))
  let line :=
    if quoted then .opt (.lexeme (while1 (· != '\n')))
    else
      .many (expansion <|> simpleExpansion <|> commandSubstitution <|>
        leaf "heredoc_content" (fun cs => documentText cs <|> one (· == '$') cs))
  .node "heredoc_body" true (.many (.notAhead stop ++ line ++ text "\n")) ++ stop

def documentLine : Phrase :=
  let joined := .field "operator" (mark "&&" <|> mark "||") ++ gap ++ .field "right" statement
  let piped := .node "pipeline" true ((mark "|&" <|> mark "|") ++ gap ++ statement)
  let redirects := .many1 (.field "redirect" (trailingRedirect <|> herestring) ++ space)
  joined <|> piped <|> (redirects ++ .opt joined) <|>
    .many (.field "argument" plainLiteral ++ space)

def heredoc : Phrase :=
  let opening := .node "heredoc_start" true
    (.lexeme singleQuoted <|> (text "\"" ++ .lexeme (before (· == '"')) ++ text "\"") <|>
      .lexeme (while1 (!isSpace ·)))
  let document (indented : Bool) :=
    Rule.dependent opening fun cs =>
      space ++ documentLine ++ space ++ text "\n" ++ documentBody indented cs
  .node "heredoc_redirect" true
    (fileDescriptor ++
      ((mark "<<-" ++ space ++ document true) <|>
        (.notAhead (text "<<<" <|> text "<<=") ++ mark "<<" ++ space ++ document false)))

def parenthesized : Phrase :=
  .node "subshell" true (mark "(" ++ gap ++ statements ++ gap ++ mark ")")

def argument : Phrase :=
  .field "redirect" herestring <|>
    ((keyword "==" <|> keyword "=~") ++ space ++ .field "argument" plainLiteral) <|>
    .field "argument" (plainLiteral <|> bareDollar)

def commandName : Phrase :=
  .notAhead (.lexeme Lexeme.name ++ oneOf "[%#@".toList.contains) ++
    .field "name" (.node "command_name" true plainLiteral)

def commandCore : Phrase :=
  commandName ++ ((space ++ parenthesized) <|> .many (space ++ argument))

def assignments : Phrase :=
  .group "variable_assignments"
    (.nest "command" none (assignment ++ .many (space ++ assignment))
      (space ++ .many (leadingRedirect ++ space) ++ commandCore))

def redirectedCommand : Phrase :=
  .node "command" true
      (.many1 ((leadingRedirect <|> assignment) ++ space) ++ commandCore) <|>
    .node "redirected_statement" true
      (.field "redirect"
        ((trailingRedirect <|> herestring) ++ .many (space ++ (trailingRedirect <|> herestring))))

def declarations : List String :=
  ["declare", "typeset", "export", "readonly", "local"]

def lonelyName : Phrase :=
  variableName ++ .notAhead (joined false)

def declaration : Phrase :=
  .node "declaration_command" true
    (oneOfKeywords declarations ++ .many (space ++ (assignment <|> lonelyName <|> plainLiteral)))

def unsetting : Phrase :=
  .node "unset_command" true
    (oneOfKeywords ["unset", "unsetenv"] ++ .many (space ++ (lonelyName <|> plainLiteral)))

end EbuildAudit.Shell.Phrase
