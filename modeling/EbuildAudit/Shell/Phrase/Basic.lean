import EbuildAudit.Shell.Lexeme

namespace EbuildAudit.Shell

inductive Symbol
  | statement
  | literal (inBrackets : Bool)
  | string
  | expansion
  | substitution
  | arithmetic
  | condition (inBrackets : Bool)
  deriving DecidableEq, Repr

abbrev Phrase :=
  Rule Symbol

namespace Phrase

open Lexeme

def text (s : String) : Phrase :=
  .lexeme (Lexeme.text s)

def oneOf (accepts : Char → Bool) : Phrase :=
  .lexeme (one accepts)

def finish : Phrase :=
  .lexeme Lexeme.finish

def mark (s : String) : Phrase :=
  .node s false (text s)

def keyword (s : String) : Phrase :=
  .node s false (.lexeme (Lexeme.keyword s))

def oneOfMarks (marks : List String) : Phrase :=
  marks.foldr (fun s r => mark s <|> r) (.notAhead .empty)

def oneOfKeywords (keywords : List String) : Phrase :=
  keywords.foldr (fun s r => keyword s <|> r) (.notAhead .empty)

def leaf (kind : String) (length : Lexeme) : Phrase :=
  .node kind true (.lexeme length)

def comment : Phrase :=
  .node "comment" true (text "#" ++ .opt (.lexeme (while1 (· != '\n'))))

def space : Phrase :=
  .many (oneOf isBlank <|> .lexeme lineJoin <|> comment)

def spacing : Phrase :=
  .many (oneOf isSpace <|> .lexeme lineJoin)

def gap : Phrase :=
  .many (oneOf isSpace <|> .lexeme lineJoin <|> comment)

def statement : Phrase :=
  .symbol .statement

def literal : Phrase :=
  .symbol (.literal false)

def separated (separator item : Phrase) : Phrase :=
  item ++ .many (gap ++ separator ++ gap ++ item)

def terminator : Phrase :=
  space ++ (mark ";;" <|> mark ";" <|> text "\n" <|>
    (.notAhead (text "&&" <|> text "&>") ++ mark "&"))

def statements : Phrase :=
  statement ++ .many (terminator ++ gap ++ statement) ++ .opt terminator

def statementsUntil (closing : Phrase) : Phrase :=
  .many (gap ++ .notAhead closing ++ statement ++ terminator)

end Phrase

end EbuildAudit.Shell
