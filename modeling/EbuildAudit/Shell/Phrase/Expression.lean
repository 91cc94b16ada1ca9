import EbuildAudit.Shell.Phrase.Word

namespace EbuildAudit.Shell.Phrase

open Lexeme

def binary (operand : Phrase) (levels : List Phrase) : Phrase :=
  levels.foldr
    (fun op tighter =>
      .nest "binary_expression" (some "left") tighter
        (gap ++ .field "operator" op ++ gap ++ .field "right" tighter))
    operand

def arithmeticLevels : List (List String) :=
  [["+=", "-=", "*=", "/=", "%=", "**=", "<<=", ">>=", "&=", "^=", "|="], ["="], ["||"], ["&&"],
    ["|"], ["^"], ["&"], ["==", "!="], ["<", ">", "<=", ">="], ["<<", ">>"], ["+", "-"],
    ["*", "/", "%"], ["**"]]

def arithmeticOperators (wanted : List String) : Phrase :=
  wanted.foldr
    (fun s r => .node s false (.lexeme (longestOf arithmeticLevels.flatten [s])) <|> r)
    (.notAhead .empty)

def arithmeticOperand : Phrase :=
  let atom := subscript <|> number <|> variableName <|> arithmeticExpansion <|> expansion <|>
    simpleExpansion <|> commandSubstitution <|> string <|> rawString <|>
    .node "parenthesized_expression" true
      (mark "(" ++ gap ++ separated (mark ",") arithmetic ++ gap ++ mark ")")
  let counted := Rule.nest "postfix_expression" none atom (gap ++ operator ["++", "--"])
  counted <|>
    .node "unary_expression" true
      (.many1 (operator ["++", "--", "-", "+", "~", "!"] ++ gap) ++ counted)

def arithmeticBody : Phrase :=
  .nest "ternary_expression" (some "condition")
    (binary arithmeticOperand (arithmeticLevels.map arithmeticOperators))
    (gap ++ operator ["?"] ++ gap ++ .field "consequence" arithmetic ++
      gap ++ operator [":"] ++ gap ++ .field "alternative" arithmetic)

def glob : Phrase :=
  .group "concatenation"
    (.many1 (string <|> rawString <|> dollarString <|> expansion <|> simpleExpansion <|>
      commandSubstitution <|> plainDollar <|> leaf "extglob_pattern" globText))

def pattern (inBrackets : Bool) (next : Phrase) : Phrase :=
  (.symbol (.literal inBrackets) ++ .ahead (gap ++ next)) <|> glob

def testOperator : Phrase :=
  .node "test_operator" true
    (text "-" ++ .lexeme (while1 Char.isAlpha) ++ .ahead (oneOf isSpace))

def conditionOperand (inBrackets : Bool) : Phrase :=
  let word := .notAhead (text "]]") ++ .symbol (.literal inBrackets)
  let sums := oneOfKeywords ["+", "-", "*", "/", "%", "**"]
  let plain :=
    .node "parenthesized_expression" true
        (mark "(" ++ gap ++ .symbol (.condition inBrackets) ++ gap ++ mark ")") <|>
      .node "unary_expression" true
        (.field "operator" testOperator ++ gap ++ .notAhead sums ++ word) <|>
      word
  binary
    (.node "unary_expression" true (.many1 (.field "operator" (keyword "!") ++ gap) ++ plain) <|>
      plain)
    [sums]

def conditionBody (inBrackets : Bool) : Phrase :=
  let operand := conditionOperand inBrackets
  let next := text "]" <|> text ")" <|> text "&&" <|> text "||"
  let matched :=
    .field "operator" (oneOfKeywords ["==", "=", "!=", "=~"]) ++ gap ++
      .field "right" (pattern inBrackets next)
  let compared :=
    .field "operator" (testOperator <|> oneOfMarks ["<=", ">=", "<", ">"]) ++ gap ++
      .field "right" operand
  let comparison := Rule.nest "binary_expression" (some "left") operand
    (gap ++ (matched <|> compared))
  binary comparison [mark "||", mark "&&"]

end EbuildAudit.Shell.Phrase
