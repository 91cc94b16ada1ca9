import EbuildAudit.Shell.Phrase.Basic

namespace EbuildAudit.Shell.Phrase

open Lexeme

def string : Phrase :=
  .symbol .string

def expansion : Phrase :=
  .symbol .expansion

def substitution : Phrase :=
  .symbol .substitution

def arithmetic : Phrase :=
  .symbol .arithmetic

def word : Phrase :=
  leaf "word" Lexeme.word

def number : Phrase :=
  leaf "number" Lexeme.number

def variableName : Phrase :=
  leaf "variable_name" Lexeme.name

def specialName : Phrase :=
  leaf "special_variable_name" (one "*@?!#-$0_".toList.contains)

def rawString : Phrase :=
  leaf "raw_string" singleQuoted

def dollarString : Phrase :=
  leaf "ansi_c_string" dollarQuoted

def simpleExpansion : Phrase :=
  .node "simple_expansion" true (mark "$" ++ (variableName <|> specialName))

def arithmeticExpansion : Phrase :=
  .node "arithmetic_expansion" true
    ((mark "$((" ++ gap ++ separated (mark ",") arithmetic ++ gap ++ mark "))") <|>
      (mark "$[" ++ gap ++ arithmetic ++ gap ++ mark "]"))

def commandSubstitution : Phrase :=
  .notAhead (text "$((") ++ substitution

def plainDollar : Phrase :=
  .notAhead (text "$\x7b" <|> text "$(" <|> text "$[") ++ mark "$"

def stringBody : Phrase :=
  .node "string" true
    (mark "\"" ++
      .many (leaf "string_content" stringContent <|> oneOf isSpace <|> arithmeticExpansion <|>
        expansion <|> simpleExpansion <|> commandSubstitution <|> plainDollar) ++
      mark "\"")

def translatedString : Phrase :=
  .node "translated_string" true (mark "$" ++ string)

def substitutionBody : Phrase :=
  .node "command_substitution" true
    ((mark "$(" ++ gap ++ statements ++ gap ++ mark ")") <|>
      (mark "\x60" ++ .exactly (beforeUnescaped isBacktick) (gap ++ statements ++ gap) ++
        mark "\x60"))

def processSubstitution : Phrase :=
  .node "process_substitution" true
    ((mark "<(" <|> mark ">(") ++ gap ++ statements ++ gap ++ mark ")")

def braceRange : Phrase :=
  .node "brace_expression" true
    (mark "\x7b" ++ leaf "number" (while1 Char.isDigit) ++ mark ".." ++
      leaf "number" (while1 Char.isDigit) ++ mark "\x7d")

def primary : Phrase :=
  string <|> rawString <|> dollarString <|> arithmeticExpansion <|> expansion <|>
    simpleExpansion <|> commandSubstitution <|> translatedString <|>
    processSubstitution <|> braceRange <|>
    (number ++ .notAhead (.lexeme (nonempty wordTail))) <|> word

def isLoose (inBrackets : Bool) (c : Char) : Bool :=
  isBracket c && !(inBrackets && c == ']')

def bracket (inBrackets : Bool) : Phrase :=
  leaf "word" (one (isLoose inBrackets))

def joined (inBrackets : Bool) : Phrase :=
  .ahead (.lexeme fun cs => if joins inBrackets cs then some 0 else none)

def bareDollar : Phrase :=
  mark "$" ++ .ahead (oneOf (fun c => isSpace c || c == '"') <|> finish)

def looseBrackets (inBrackets : Bool) : Phrase :=
  let one := oneOf (isLoose inBrackets) ++ .notAhead (joined inBrackets)
  .node "word" true (one ++ .many (space ++ one))

def literalBody (inBrackets : Bool) : Phrase :=
  looseBrackets inBrackets <|>
    .group "concatenation"
      ((primary <|> bracket inBrackets) ++
        .many (joined inBrackets ++
          (primary <|> bracket inBrackets <|> leaf "word" (wordOf fun _ => true) <|> bareDollar)))

def operand : Phrase :=
  .group "concatenation"
    (.many1 (string <|> rawString <|> dollarString <|> expansion <|> simpleExpansion <|>
      substitution <|> leaf "word" operandText))

def operator (marks : List String) : Phrase :=
  .field "operator" (oneOfMarks marks)

def subscript : Phrase :=
  .node "subscript" true
    (.field "name" variableName ++ mark "[" ++ spacing ++
      .field "index"
        ((.symbol (.literal true) ++ .ahead (spacing ++ text "]")) <|> arithmetic) ++
      spacing ++ mark "]")

def expansionTail : Phrase :=
  .ahead (spacing ++ text "\x7d") <|>
    (operator [":=", ":-", ":+", ":?", "=", "-", "+", "?"] ++ .opt operand) <|>
    (operator ["##", "#", "%%", "%"] ++
      .many (string <|> rawString <|> leaf "regex" removedPattern <|>
        leaf "regex" (while1 isSpace) <|> leaf "regex" (Lexeme.text ")"))) <|>
    (operator ["//", "/#", "/%", "/"] ++
      .opt ((string ++ .opt (leaf "regex" replacedPattern)) <|>
        (.ahead (text "$(") ++ substitution) <|> leaf "regex" replacedPattern) ++
      .opt (operator ["/"] ++ .opt operand)) <|>
    (operator [",,", ",", "^^", "^"] ++ .opt (leaf "regex" removedPattern)) <|>
    (operator [":"] ++ spacing ++ .opt arithmetic ++ spacing ++
      .opt (operator [":"] ++ spacing ++ .opt arithmetic)) <|>
    (operator ["@"] ++ operator ["U", "u", "L", "Q", "E", "P", "A", "K", "a", "k"])

def expansionSubject : Phrase :=
  subscript <|> variableName <|> specialName <|> substitution

def expansionBody : Phrase :=
  let closing := spacing ++ mark "\x7d"
  let lone := .many1 (operator ["#", "!", "="])
  let indirect := operator ["!"] ++ variableName ++ operator ["@", "*"]
  let modified := operator ["#", "!", "="] ++ expansionSubject ++ expansionTail
  let plain := expansionSubject ++ expansionTail
  .node "expansion" true
    (mark "$\x7b" ++
      ((lone ++ closing) <|> (indirect ++ closing) <|> (modified ++ closing) <|>
        (plain ++ closing)))

end EbuildAudit.Shell.Phrase
