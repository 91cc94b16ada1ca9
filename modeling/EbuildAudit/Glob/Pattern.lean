namespace EbuildAudit.Glob

inductive Specifier
  | single (c : Char)
  | range (first last : Char)
  deriving DecidableEq, Repr

inductive Token
  | char (c : Char)
  | anyChar
  | anySequence
  | anyDirectories
  | anyWithin (cs : List Specifier)
  | anyExcept (cs : List Specifier)
  deriving DecidableEq, Repr

structure Pattern where
  tokens : List Token
  deriving DecidableEq, Repr

inductive Fault
  | wildcards
  | recursiveWildcards
  | invalidRange
  deriving DecidableEq, Repr

def Fault.message : Fault → String
  | .wildcards => "wildcards are either regular `*` or recursive `**`"
  | .recursiveWildcards => "recursive wildcards must form a single path component"
  | .invalidRange => "invalid range pattern"

structure PatternError where
  position : Nat
  fault : Fault
  deriving DecidableEq, Repr

def PatternError.message (e : PatternError) : String :=
  "Pattern syntax error near position " ++ toString e.position ++ ": " ++ e.fault.message

def specifiers : List Char → List Specifier
  | a :: '-' :: b :: cs => .range a b :: specifiers cs
  | c :: cs => .single c :: specifiers cs
  | [] => []

def pushDirectories (done : List Token) : List Token :=
  match done with
  | .anyDirectories :: _ :: _ => done
  | _ => .anyDirectories :: done

structure OpenClass where
  start : Nat
  negated : Bool
  chars : List Char

def OpenClass.token (o : OpenClass) : Token :=
  if o.negated then .anyExcept (specifiers o.chars.reverse)
  else .anyWithin (specifiers o.chars.reverse)

def readTokens (position : Nat) (previous : Option Char) (done : List Token) :
    Option OpenClass → List Char → Except PatternError (List Token)
  | some o, [] => .error ⟨o.start, .invalidRange⟩
  | some o, c :: cs =>
    if c = ']' then readTokens (position + 1) (some c) (o.token :: done) none cs
    else readTokens (position + 1) (some c) done (some { o with chars := c :: o.chars }) cs
  | none, [] => .ok done.reverse
  | none, '?' :: cs => readTokens (position + 1) (some '?') (.anyChar :: done) none cs
  | none, '*' :: '*' :: '*' :: _ => .error ⟨position + 2, .wildcards⟩
  | none, '*' :: '*' :: cs =>
    if previous.isNone || previous = some '/' then
      match cs with
      | [] => .ok (pushDirectories done).reverse
      | '/' :: cs => readTokens (position + 3) (some '/') (pushDirectories done) none cs
      | _ :: _ => .error ⟨position + 2, .recursiveWildcards⟩
    else .error ⟨position - 1, .recursiveWildcards⟩
  | none, '*' :: cs => readTokens (position + 1) (some '*') (.anySequence :: done) none cs
  | none, '[' :: '!' :: c :: cs =>
    readTokens (position + 3) (some c) done (some ⟨position, true, [c]⟩) cs
  | none, '[' :: c :: cs =>
    if c = '!' then .error ⟨position, .invalidRange⟩
    else readTokens (position + 2) (some c) done (some ⟨position, false, [c]⟩) cs
  | none, ['['] => .error ⟨position, .invalidRange⟩
  | none, c :: cs => readTokens (position + 1) (some c) (.char c :: done) none cs

def Pattern.parse (s : String) : Except PatternError Pattern := do
  return ⟨← readTokens 0 none [] none s.toList⟩

def Specifier.accepts (anyCase : Bool) (c : Char) : Specifier → Bool
  | .single s => c == s || anyCase && c.toLower == s.toLower
  | .range first last =>
    first ≤ c && c ≤ last ||
      anyCase && first.isAlpha && last.isAlpha && first.toLower ≤ c.toLower && c.toLower ≤ last.toLower

inductive Match
  | yes
  | no
  /-- The text ended before the pattern: no shorter rest of it can match either. -/
  | exhausted
  deriving DecidableEq, Repr

/--
Tries the rest of a pattern after longer and longer runs of characters. A run that stands for
directories ends with a slash or with the text.
-/
def scan (directories : Bool) (rest : List Char → Match) : List Char → Match
  | [] => rest []
  | c :: cs =>
    if directories && c != '/' then scan directories rest cs
    else
      match rest cs with
      | .no => scan directories rest cs
      | m => m

def Token.accepts (anyCase : Bool) (c : Char) : Token → Bool
  | .char d => c == d || anyCase && c.toLower == d.toLower
  | .anyChar => true
  | .anyWithin cs => cs.any (·.accepts anyCase c)
  | .anyExcept cs => !cs.any (·.accepts anyCase c)
  | .anySequence | .anyDirectories => false

def matchTokens (anyCase : Bool) : List Token → List Char → Match
  | [], [] => .yes
  | [], _ :: _ => .no
  | .anySequence :: ts, cs =>
    match matchTokens anyCase ts cs with
    | .no => scan false (matchTokens anyCase ts) cs
    | m => m
  | .anyDirectories :: ts, cs =>
    match matchTokens anyCase ts cs with
    | .no => scan true (matchTokens anyCase ts) cs
    | m => m
  | _ :: _, [] => .exhausted
  | t :: ts, c :: cs => if t.accepts anyCase c then matchTokens anyCase ts cs else .no

def Pattern.matches (p : Pattern) (s : String) : Bool :=
  matchTokens false p.tokens s.toList == .yes

def Pattern.matchesAnyCase (p : Pattern) (s : String) : Bool :=
  matchTokens true p.tokens s.toList == .yes

def Pattern.isRecursive (p : Pattern) : Bool :=
  p.tokens.contains .anyDirectories

def Token.char? : Token → Option Char
  | .char c => some c
  | _ => none

def Pattern.literal? (p : Pattern) : Option String :=
  (p.tokens.mapM Token.char?).map String.ofList

end EbuildAudit.Glob
