import EbuildAudit.Shell.Rule

namespace EbuildAudit.Shell.Lexeme

def isBlank (c : Char) : Bool :=
  c == ' ' || c == '\t' || c == '\r' || c == '\x0b' || c == '\x0c'

def isSpace (c : Char) : Bool :=
  isBlank c || c == '\n'

def isBacktick (c : Char) : Bool :=
  c.toNat == 0x60

def isSpecial (c : Char) : Bool :=
  isSpace c || isBacktick c || "'\"<>\x7b\x7d[]()$|&;\\".toList.contains c

def isNameChar (c : Char) : Bool :=
  c.isAlphanum || c == '_'

def isBracket (c : Char) : Bool :=
  c == '\x7b' || c == '\x7d' || c == '[' || c == ']'

def one (accepts : Char → Bool) : Lexeme
  | c :: _ => if accepts c then some 1 else none
  | [] => none

def while1 (accepts : Char → Bool) : Lexeme := fun cs =>
  match (cs.takeWhile accepts).length with
  | 0 => none
  | n => some n

def text (s : String) : Lexeme := fun cs =>
  if s.toList.isPrefixOf cs then some s.length else none

def finish : Lexeme
  | [] => some 0
  | _ :: _ => none

def longestOf (texts wanted : List String) : Lexeme := fun cs => do
  let present := texts.filter (·.toList.isPrefixOf cs)
  let longest := present.foldl (fun best s => if best.length < s.length then s else best) ""
  if wanted.contains longest then some longest.length else none

def lineJoin : Lexeme
  | '\\' :: '\n' :: _ => some 2
  | '\\' :: '\r' :: '\n' :: _ => some 3
  | '\\' :: c :: _ => if isBlank c && c != '\r' then some 2 else none
  | _ => none

def wordTail : List Char → Nat
  | '\\' :: c :: rest => if isSpace c && c != ' ' then 0 else 2 + wordTail rest
  | c :: rest => if isSpecial c then 0 else 1 + wordTail rest
  | [] => 0

def wordHead (isFirst : Char → Bool) : Lexeme
  | '\\' :: c :: _ => if isSpace c then none else some 2
  | c :: _ => if isSpecial c || !isFirst c then none else some 1
  | [] => none

def wordOf (isFirst : Char → Bool) : Lexeme := fun cs =>
  (wordHead isFirst cs).map fun n => n + wordTail (cs.drop n)

def word : Lexeme :=
  wordOf (· != '#')

def keyword (s : String) : Lexeme := fun cs => do
  let n ← text s cs
  if wordTail (cs.drop n) = 0 then some n else none

def name : Lexeme :=
  while1 isNameChar

def digits (cs : List Char) : Nat :=
  (cs.takeWhile Char.isDigit).length

def number : Lexeme := fun cs =>
  let sign := if cs.head? = some '-' then 1 else 0
  let unsigned := cs.drop sign
  let mark := if "0x".toList.isPrefixOf unsigned && digits (unsigned.drop 2) != 0 then 2 else 0
  match digits (unsigned.drop mark) with
  | 0 => none
  | n =>
    let whole := sign + mark + n
    match cs.drop whole with
    | '#' :: rest =>
      match (rest.takeWhile fun c => isNameChar c || c == '@').length with
      | 0 => some whole
      | k => some (whole + 1 + k)
    | _ => some whole

def descriptor : Lexeme := fun cs =>
  match digits cs, (cs.dropWhile Char.isDigit).head? with
  | 0, _ => none
  | n, some c => if c == '<' || c == '>' then some n else none
  | _, none => none

def before (stop : Char → Bool) (cs : List Char) : Option Nat :=
  if cs.any stop then some (cs.takeWhile (!stop ·)).length else none

def beforeUnescaped (stop : Char → Bool) : List Char → Option Nat
  | '\\' :: _ :: rest => (beforeUnescaped stop rest).map (· + 2)
  | c :: rest => if stop c then some 0 else (beforeUnescaped stop rest).map (· + 1)
  | [] => none

def singleQuoted : Lexeme
  | '\'' :: rest => (before (· == '\'') rest).map (· + 2)
  | _ => none

def dollarQuoted : Lexeme
  | '$' :: '\'' :: rest =>
    (beforeUnescaped (· == '\'') rest <|> before (· == '\'') rest).map (· + 3)
  | _ => none

def stringContentTail : List Char → Nat
  | '\\' :: '\r' :: '\n' :: rest => 3 + stringContentTail rest
  | '\\' :: _ :: rest => 2 + stringContentTail rest
  | c :: rest =>
    if c == '"' || isBacktick c || c == '$' || c == '\\' || c == '\r' || c == '\n' then 0
    else 1 + stringContentTail rest
  | [] => 0

def nonempty (length : List Char → Nat) : Lexeme := fun cs =>
  match length cs with
  | 0 => none
  | n => some n

def stringContent : Lexeme :=
  nonempty stringContentTail

structure Open where
  parens : Nat := 0
  squares : Nat := 0
  braces : Nat := 0

def Open.after (o : Open) (escaped : Bool) (c : Char) : Option Open :=
  match c with
  | '(' => some { o with parens := o.parens + 1 }
  | '[' => some { o with squares := o.squares + 1 }
  | '\x7b' => some (if escaped then o else { o with braces := o.braces + 1 })
  | ')' => if o.parens = 0 then none else some { o with parens := o.parens - 1 }
  | ']' => if o.squares = 0 then none else some { o with squares := o.squares - 1 }
  | '\x7d' => if o.braces = 0 then none else some { o with braces := o.braces - 1 }
  | _ => some o

def patternTail (stop : Char → Bool) (o : Open) (escaped : Bool) : List Char → Option Nat
  | [] => none
  | c :: rest =>
    if stop c then some 0
    else
      match o.after escaped c with
      | none => some 0
      | some o => (patternTail stop o (c == '\\') rest).map (· + 1)

def removedPattern : Lexeme := fun cs => do
  let n ← patternTail (fun _ => false) {} false cs
  match ((cs.take n).reverse.dropWhile isSpace).length with
  | 0 => none
  | k => some k

def replacedPattern : Lexeme := fun cs => do
  let n ← patternTail (· == '/') {} false cs
  if n = 0 then none else some n

def startsExpansion : List Char → Bool
  | '$' :: c :: _ => c == '\x7b' || c == '(' || c == '\'' || c.isAlphanum
  | _ => false

def operandTail : List Char → Nat
  | '\\' :: _ :: rest => 2 + operandTail rest
  | c :: rest =>
    if c == '\x7d' || c == '"' || c == '\'' || startsExpansion (c :: rest) then 0
    else 1 + operandTail rest
  | [] => 0

def operandText : Lexeme :=
  nonempty operandTail

def globTail (depth : Nat) : List Char → Nat
  | '\\' :: _ :: rest => 2 + globTail depth rest
  | c :: rest =>
    if c == '"' || c == '\'' || isBacktick c || startsExpansion (c :: rest) then 0
    else if c == '(' then 1 + globTail (depth + 1) rest
    else if depth = 0 then
      if isSpace c || c == '|' || c == ')' || c == ';' || c == '&' then 0
      else 1 + globTail 0 rest
    else 1 + globTail (if c == ')' then depth - 1 else depth) rest
  | [] => 0

def globText : Lexeme :=
  nonempty (globTail 0)

def documentTail : List Char → Nat
  | '\\' :: c :: rest => if c == '\n' then 1 else 2 + documentTail rest
  | c :: rest =>
    if c == '\n' || startsExpansion (c :: rest) then 0 else 1 + documentTail rest
  | [] => 0

def documentText : Lexeme :=
  nonempty documentTail

def joins (inBrackets : Bool) : List Char → Bool
  | [] => false
  | c :: rest =>
    if isSpace c || "><)(;&|".toList.contains c then false
    else if inBrackets && c == ']' then false
    else if isBacktick c then
      match rest.dropWhile (!isBacktick ·) with
      | _ :: d :: _ => isSpace d
      | [_] => true
      | [] => false
    else if c == '\\' then rest.head?.any fun d => d == '"' || d == '\'' || d == '\\'
    else true

end EbuildAudit.Shell.Lexeme
