namespace EbuildAudit.Dependency

def isIdentifierStart (c : Char) : Bool :=
  c.isAlpha || c == '_'

def isIdentifierChar (c : Char) : Bool :=
  c.isAlphanum || c == '_'

def takeIdentifier : List Char → List Char × List Char
  | c :: cs =>
    if isIdentifierStart c then
      (c :: cs.takeWhile isIdentifierChar, cs.dropWhile isIdentifierChar)
    else ([], c :: cs)
  | [] => ([], [])

def dropOpenBrace : List Char → List Char
  | '\x7b' :: cs => cs
  | cs => cs

def dropCloseBrace : List Char → List Char
  | '\x7d' :: cs => cs
  | cs => cs

def takeReference? : List Char → Option (List Char × List Char)
  | '$' :: cs =>
    let (name, rest) := takeIdentifier (dropOpenBrace cs)
    if name.isEmpty then none else some (name, dropCloseBrace rest)
  | _ => none

theorem takeIdentifier_length (cs : List Char) :
    (takeIdentifier cs).1.length + (takeIdentifier cs).2.length = cs.length := by
  cases cs with
  | nil => rfl
  | cons c cs =>
    simp only [takeIdentifier]
    split
    · have h := congrArg List.length
        (List.takeWhile_append_dropWhile (p := isIdentifierChar) (l := cs))
      simp only [List.length_append] at h
      simp only [List.length_cons]
      omega
    · simp

theorem takeReference?_length {cs name rest : List Char}
    (h : takeReference? cs = some (name, rest)) : rest.length < cs.length := by
  unfold takeReference? at h
  split at h
  · rename_i cs
    simp only [Option.ite_none_left_eq_some, Option.some.injEq, Prod.mk.injEq] at h
    obtain ⟨-, -, rfl⟩ := h
    have h₁ := takeIdentifier_length (dropOpenBrace cs)
    have h₂ : (dropOpenBrace cs).length ≤ cs.length := by
      unfold dropOpenBrace; split <;> simp
    have h₃ : ∀ ds, (dropCloseBrace ds).length ≤ ds.length := by
      intro ds; unfold dropCloseBrace; split <;> simp
    have h₄ := h₃ (takeIdentifier (dropOpenBrace cs)).2
    simp only [List.length_cons]
    omega
  · simp at h

def replaceReferences (value : List Char → List Char) (cs : List Char) : List Char :=
  match cs with
  | [] => []
  | c :: cs =>
    match h : takeReference? (c :: cs) with
    | some (name, rest) =>
      have := takeReference?_length h
      value name ++ replaceReferences value rest
    | none => c :: replaceReferences value cs
termination_by cs.length
decreasing_by
  all_goals simp only [List.length_cons] at *
  all_goals omega

def replacePair (a b : Char) (replacement : List Char) : List Char → List Char
  | x :: y :: cs =>
    if x = a ∧ y = b then replacement ++ replacePair a b replacement cs
    else x :: replacePair a b replacement (y :: cs)
  | cs => cs

def tidyOnce (cs : List Char) : List Char :=
  replacePair ',' ',' [','] <|
  replacePair ',' ']' [']'] <|
  replacePair '[' ',' ['['] <|
  replacePair '[' ']' [] cs

/-- Each round that changes the text makes it shorter, so its length bounds the rounds. -/
def tidyRounds : Nat → List Char → List Char
  | 0, cs => cs
  | n + 1, cs => if tidyOnce cs = cs then cs else tidyRounds n (tidyOnce cs)

def tidy (cs : List Char) : List Char :=
  tidyRounds cs.length cs

def expandChars (values : List (String × String)) (cs : List Char) : List Char :=
  let once := replaceReferences
    (fun name => ((values.lookup (String.ofList name)).getD "").toList) cs
  tidy (replaceReferences (fun _ => []) once)

/-- References to the given values become their values, all others vanish. -/
def expandReferences (values : List (String × String)) (value : String) : String :=
  String.ofList (expandChars values value.toList)

end EbuildAudit.Dependency
