import EbuildAudit.Shell.Phrase.Command

namespace EbuildAudit.Shell.Phrase

open Lexeme

def compound : Phrase :=
  .node "compound_statement" true
    (mark "\x7b" ++ statementsUntil (text "\x7d") ++ gap ++ mark "\x7d")

def doGroup : Phrase :=
  .node "do_group" true
    (keyword "do" ++ statementsUntil (keyword "done") ++ gap ++ keyword "done")

def guardUntil (closing : Phrase) : Phrase :=
  gap ++ .field "condition" (statement ++ terminator ++ statementsUntil closing)

def whileLoop : Phrase :=
  .node "while_statement" true
    (oneOfKeywords ["while", "until"] ++ guardUntil (keyword "do") ++ gap ++ .field "body" doGroup)

def forLoop : Phrase :=
  .node "for_statement" true
    (oneOfKeywords ["for", "select"] ++ space ++ .field "variable" variableName ++
      .opt (space ++ keyword "in" ++ .many1 (space ++ .field "value" literal)) ++
      terminator ++ gap ++ .field "body" doGroup)

def countingLoop : Phrase :=
  let part := gap ++ .opt (separated (mark ",") arithmetic) ++ gap
  .node "c_style_for_statement" true
    (keyword "for" ++ space ++ mark "((" ++ .field "initializer" part ++ mark ";" ++
      .field "condition" part ++ mark ";" ++ .field "update" part ++ mark "))" ++ .opt (mark ";") ++
      gap ++ .field "body" (doGroup <|> compound))

def branch : Phrase :=
  let next := keyword "elif" <|> keyword "else" <|> keyword "fi"
  .node "if_statement" true
    (keyword "if" ++ guardUntil (keyword "then") ++ gap ++ keyword "then" ++ statementsUntil next ++
      .many (gap ++
        .node "elif_clause" true
          (keyword "elif" ++ gap ++ statement ++ terminator ++ statementsUntil (keyword "then") ++
            gap ++ keyword "then" ++ statementsUntil next)) ++
      .opt (gap ++ .node "else_clause" true (keyword "else" ++ statementsUntil (keyword "fi"))) ++
      gap ++ keyword "fi")

def caseBody : Phrase :=
  let separator := .notAhead (space ++ (text ";;" <|> text ";&")) ++ terminator
  let item := gap ++ .notAhead (keyword "esac" <|> text ";;") ++ statement
  .opt (item ++ .many (separator ++ item) ++ .opt separator)

def caseItem : Phrase :=
  let value := .field "value" (pattern false (text "|" <|> text ")"))
  .node "case_item" true
    (.opt (mark "(" ++ gap) ++ value ++ .many (gap ++ mark "|" ++ gap ++ value) ++
      gap ++ mark ")" ++ caseBody ++ gap ++
      (.field "fallthrough" (mark ";;&" <|> mark ";&") <|> .field "termination" (mark ";;") <|>
        .ahead (keyword "esac")))

def caseStatement : Phrase :=
  .node "case_statement" true
    (keyword "case" ++ gap ++ .field "value" literal ++ .opt terminator ++ gap ++ keyword "in" ++
      .opt terminator ++ .many (gap ++ .notAhead (keyword "esac") ++ caseItem) ++
      gap ++ keyword "esac")

def test : Phrase :=
  .node "test_command" true
    ((mark "[[" ++ gap ++ .symbol (.condition false) ++ gap ++ mark "]]") <|>
      (mark "((" ++ gap ++ .opt (separated (mark ",") arithmetic) ++ gap ++ mark "))") <|>
      (.notAhead (text "[[") ++ mark "[" ++ gap ++ .opt (.symbol (.condition true)) ++
        gap ++ mark "]"))

def subshell : Phrase :=
  .notAhead (text "((") ++ parenthesized

def negation : Phrase :=
  .node "negated_command" true
    (keyword "!" ++ space ++ (test <|> subshell <|> assignments <|> redirectedCommand <|>
      .node "command" true commandCore))

def function : Phrase :=
  let parens := mark "(" ++ space ++ mark ")"
  let header := (keyword "function" ++ space ++ .field "name" word ++ .opt (space ++ parens)) <|>
    (.field "name" word ++ space ++ parens)
  .node "function_definition" true
    (header ++ gap ++ .field "body" (compound <|> subshell <|> test <|> branch) ++
      .opt (space ++ .field "redirect" (fileRedirect plainLiteral <|> herestring)))

def opener : Phrase :=
  text "\x7b" <|> text "[" <|> text "(" <|>
    oneOfKeywords
      (["if", "for", "select", "while", "until", "case", "function", "unset", "unsetenv", "!"] ++
        declarations)

def simpleStatement : Phrase :=
  assignments <|> compound <|> test <|> subshell <|> whileLoop <|> forLoop <|> countingLoop <|>
    branch <|> caseStatement <|> negation <|> declaration <|> unsetting <|> function <|>
    redirectedCommand <|> (.notAhead opener ++ .node "command" true commandCore)

def redirected : Phrase :=
  .nest "redirected_statement" (some "body") simpleStatement
    (.many1 (space ++ .field "redirect" (trailingRedirect <|> heredoc <|> herestring)))

def pipeline : Phrase :=
  .group "pipeline"
    (redirected ++
      .many (space ++ (mark "|&" <|> (.notAhead (text "||") ++ mark "|")) ++ gap ++ redirected))

def statementBody : Phrase :=
  .nest "list" none pipeline (space ++ (mark "&&" <|> mark "||") ++ gap ++ pipeline)

def program : Phrase :=
  spacing ++ .node "program" true (gap ++ .opt (statements ++ gap) ++ finish)

end EbuildAudit.Shell.Phrase

namespace EbuildAudit.Shell

def Symbol.rule : Symbol → Phrase
  | .statement => Phrase.statementBody
  | .literal inBrackets => Phrase.literalBody inBrackets
  | .string => Phrase.stringBody
  | .expansion => Phrase.expansionBody
  | .substitution => Phrase.substitutionBody
  | .arithmetic => Phrase.arithmeticBody
  | .condition inBrackets => Phrase.conditionBody inBrackets

def Phrase.readAll (p : Phrase) (script : List Char) : Option (List Node × Cursor) :=
  p.read (readWithin Symbol.rule (10 * (script.length + 1))) (.start script)

def failurePlace (script : List Char) : Cursor :=
  ((Phrase.gap ++ .opt (Phrase.statements ++ Phrase.gap)).readAll script).elim (.start script) (·.2)

def parse (script : String) : Except ParseFailure Tree :=
  let chars := script.toList
  match Phrase.program.readAll chars with
  | some ([root], _) => .ok ⟨chars, root⟩
  | _ =>
    let place := failurePlace chars
    .error ⟨"syntax error", place.line, place.column⟩

end EbuildAudit.Shell
