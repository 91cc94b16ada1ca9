import EbuildAudit.Ebuild.Metadata
import EbuildAudit.Proofs.Basic
import EbuildAudit.Proofs.Ebuild.Quoting
import Mathlib.Data.List.Induction

/-!
Scripts made of assignments. Such a script is read as the assignments it was made of, whatever the
lines of their values look like, and a variable has the value that they give it one after the other.
-/

namespace EbuildAudit.Ebuild

open Text

def IsIdentifier : List Char → Prop
  | [] => False
  | c :: cs => Dependency.isIdentifierStart c ∧ ∀ d ∈ cs, Dependency.isIdentifierChar d

instance (cs : List Char) : Decidable (IsIdentifier cs) :=
  match cs with
  | [] => .isFalse id
  | _ :: cs =>
    have := List.decidableBAll (fun d => Dependency.isIdentifierChar d) cs
    instDecidableAnd

/-- A quoted value for a variable. No line of the value ends in a carriage return. -/
structure Assignment where
  name : String
  append : Bool
  quote : Char
  body : List Char
  isIdentifier : IsIdentifier name.toList
  isQuote : IsQuote quote
  enclosed : Enclosed quote body
  noReturn : ¬['\r', '\n'] <:+: body

namespace Assignment

def sign (a : Assignment) : List Char :=
  if a.append then ['+', '='] else ['=']

def opening (a : Assignment) : List Char :=
  a.name.toList ++ (a.sign ++ [a.quote])

def chars (a : Assignment) : List Char :=
  a.opening ++ (a.body ++ [a.quote, '\n'])

def statement (a : Assignment) (number : ℕ) : Statement :=
  .assign a.name a.append a.body number

def apply (name : String) (value : Option (List Char)) (a : Assignment) : Option (List Char) :=
  if a.name = name then some (if a.append then value.getD [] ++ ' ' :: a.body else a.body) else value

end Assignment

def script (as : List Assignment) : List Char :=
  as.flatMap Assignment.chars

def render (as : List Assignment) : String :=
  String.ofList (script as)

def Assignment.renderUnclosed (a : Assignment) : String :=
  String.ofList (a.opening ++ a.body)

/-- The statements of a script that begins on the given line. -/
def placed : ℕ → List Assignment → List Statement
  | _, [] => []
  | number, a :: as => a.statement number :: placed (number + a.chars.count '\n') as

def valueOf (name : String) (as : List Assignment) : Option (List Char) :=
  as.foldl (Assignment.apply name) none

def firstLine? (name : String) : ℕ → List Assignment → Option ℕ
  | _, [] => none
  | number, a :: as =>
    if a.name = name then some number else firstLine? name (number + a.chars.count '\n') as

variable {a : Assignment} {as : List Assignment} {number line : ℕ} {name : String}
  {c : Char} {cs rest text chunk : List Char}

/-! ## Reading an assignment -/

theorem isIdentifierChar_of_start (hc : Dependency.isIdentifierStart c) :
    Dependency.isIdentifierChar c := by
  simp only [Dependency.isIdentifierStart, Bool.or_eq_true] at hc
  simp only [Dependency.isIdentifierChar, Char.isAlphanum, Bool.or_eq_true]
  exact hc.imp_left .inl

theorem IsIdentifier.isIdentifierChar (h : IsIdentifier cs) (hc : c ∈ cs) :
    Dependency.isIdentifierChar c := by
  cases cs with
  | nil => cases hc
  | cons d cs =>
    rcases List.mem_cons.1 hc with rfl | hc
    · exact isIdentifierChar_of_start h.1
    · exact h.2 c hc

theorem not_isBlank_of_isIdentifierChar (hc : Dependency.isIdentifierChar c) : ¬isBlank c := by
  simp only [Dependency.isIdentifierChar, Bool.or_eq_true, beq_iff_eq] at hc
  rcases hc with halphanum | rfl
  · exact not_isBlank_of_isAlphanum halphanum
  · decide

theorem takeIdentifier_append (h : IsIdentifier cs)
    (hrest : ∀ c ∈ rest.head?, ¬Dependency.isIdentifierChar c) :
    Dependency.takeIdentifier (cs ++ rest) = (cs, rest) := by
  cases cs with
  | nil => cases h
  | cons c cs =>
    rw [List.cons_append, Dependency.takeIdentifier, if_pos h.1, takeWhile_append_stop h.2 hrest,
      dropWhile_append_stop h.2 hrest]

namespace Assignment

theorem head?_sign (a : Assignment) (tail : List Char) :
    ∃ c, (a.sign ++ tail).head? = some c ∧ (c = '+' ∨ c = '=') := by
  rw [sign]
  cases a.append with
  | true => exact ⟨'+', rfl, .inl rfl⟩
  | false => exact ⟨'=', rfl, .inr rfl⟩

theorem opening_append (a : Assignment) (chunk : List Char) :
    a.opening ++ chunk = a.name.toList ++ (a.sign ++ a.quote :: chunk) := by
  rw [opening, List.append_assoc, List.append_assoc]
  rfl

theorem assignmentStart_opening (a : Assignment) (chunk : List Char) :
    assignmentStart (a.opening ++ chunk) = .assign a.name.toList a.append (a.quote :: chunk) := by
  have hstop : ∀ c ∈ (a.sign ++ a.quote :: chunk).head?, ¬Dependency.isIdentifierChar c := by
    obtain ⟨c, hhead, hc⟩ := a.head?_sign (a.quote :: chunk)
    rw [hhead]
    rintro d ⟨⟩
    rcases hc with rfl | rfl <;> decide
  have hname := a.isIdentifier
  rw [opening_append, assignmentStart, takeIdentifier_append a.isIdentifier hstop, sign]
  cases hcs : a.name.toList with
  | nil => rw [hcs] at hname; cases hname
  | cons c cs => cases a.append <;> rfl

theorem lineStart_opening (a : Assignment) (chunk : List Char) :
    lineStart (a.opening ++ chunk) = .assign a.name.toList a.append (a.quote :: chunk) := by
  rw [← assignmentStart_opening, lineStart]
  split
  case h_1 c cs hkeyword =>
    have hsplit := List.isPrefixOf?_eq_some_iff_append_eq.1 hkeyword
    refine if_neg ?_
    obtain ⟨d, hhead, hd⟩ := a.head?_sign (a.quote :: chunk)
    have hblank : ¬isBlank d := by rcases hd with rfl | rfl <;> decide
    rw [opening_append] at hsplit
    rcases List.append_eq_append_iff.1 hsplit with ⟨more, hname, hrest⟩ | ⟨more, hword, hrest⟩
    case inl =>
      cases more with
      | nil =>
        rw [List.nil_append] at hrest
        rw [← hrest] at hhead
        cases hhead
        exact hblank
      | cons e more =>
        cases hrest
        refine not_isBlank_of_isIdentifierChar (a.isIdentifier.isIdentifierChar ?_)
        rw [hname]
        simp
    case inr =>
      cases more with
      | nil =>
        rw [hrest] at hhead
        cases hhead
        exact hblank
      | cons e more =>
        rw [hrest] at hhead
        cases hhead
        have hword : d ∈ "inherit".toList := by
          rw [hword]
          simp
        rcases hd with rfl | rfl <;> exact absurd hword (by decide)
  case h_2 => rfl

theorem not_mem_opening (a : Assignment) : '\n' ∉ a.opening := by
  have hname : '\n' ∉ a.name.toList := fun hmem =>
    absurd (a.isIdentifier.isIdentifierChar hmem) (by decide)
  have hsign : '\n' ∉ a.sign := by
    rw [sign]
    cases a.append <;> decide
  simp [opening, hname, hsign, a.isQuote.ne.2.1.symm]

theorem count_chars (a : Assignment) : a.chars.count '\n' = a.body.count '\n' + 1 := by
  rw [chars, List.count_append, List.count_append, List.count_eq_zero.2 a.not_mem_opening,
    List.count_cons_of_ne a.isQuote.ne.2.1, Nat.zero_add]
  rfl

theorem lineLists_opening (a : Assignment) (text : List Char) : ∃ chunk lines,
    lineLists (a.opening ++ text) = (a.opening ++ chunk) :: lines ∧
      (lineLists text = chunk :: lines ∨ text = [] ∧ chunk = [] ∧ lines = []) := by
  refine lineLists_start (by simp [opening]) a.not_mem_opening ?_ text
  rw [opening, ← List.append_assoc, List.getLast?_concat]
  simpa using a.isQuote.ne.2.2

theorem readLines_opening (a : Assignment) (chunk : List Char) (lines : List (List Char)) :
    readLines number none ((a.opening ++ chunk) :: lines) =
      readLines number (some ⟨a.name.toList, a.append, number, a.quote, []⟩) (chunk :: lines) := by
  have hopen (o : OpenValue) : readLines number (some o) (chunk :: lines) =
      readLines.continueValue number o chunk lines := by
    rw [readLines]
  have hquote : a.quote = '"' ∨ a.quote = '\'' := a.isQuote
  rw [hopen, readLines, lineStart_opening]
  simp only [startValue, if_pos hquote]

theorem readLines_chars (a : Assignment) (rest : List Char) :
    readLines number none (lineLists (a.chars ++ rest)) = do
      return a.statement number ::
        (← readLines (number + a.chars.count '\n') none (lineLists rest)) := by
  obtain ⟨chunk, lines, hlines, hcut⟩ := a.lineLists_opening (a.body ++ a.quote :: '\n' :: rest)
  have hchars : a.chars ++ rest = a.opening ++ (a.body ++ a.quote :: '\n' :: rest) := by
    simp [chars]
  rcases hcut with hcut | ⟨hempty, -⟩
  · rw [hchars, hlines, readLines_opening, ← hcut,
      readLines_closed a.isQuote a.enclosed a.noReturn, count_chars, Nat.add_right_comm,
      Nat.add_assoc]
    simp only [OpenValue.finish, String.ofList_toList, List.nil_append, statement]
  · simp at hempty

theorem readLines_opening_unclosed (a : Assignment) (h : Enclosed a.quote text) :
    readLines number none (lineLists (a.opening ++ text)) = .error a.name := by
  obtain ⟨chunk, lines, hlines, hcut⟩ := a.lineLists_opening text
  rw [hlines, readLines_opening]
  rcases hcut with hcut | ⟨-, rfl, rfl⟩
  · rw [← hcut, readLines_unclosed a.isQuote h, String.ofList_toList]
  · rw [readLines_open rfl, readLines, String.ofList_toList]

end Assignment

/-! ## Reading a script -/

theorem script_cons (a : Assignment) (as : List Assignment) :
    script (a :: as) = a.chars ++ script as :=
  List.flatMap_cons

theorem readLines_script (number : ℕ) (as : List Assignment) (rest : List Char) :
    readLines number none (lineLists (script as ++ rest)) = do
      return placed number as ++
        (← readLines (number + (script as).count '\n') none (lineLists rest)) := by
  induction as generalizing number with
  | nil => exact (bind_pure _).symm
  | cons a as ih =>
    rw [script_cons, List.append_assoc, a.readLines_chars, ih, List.count_append, Nat.add_assoc]
    simp only [bind_assoc, pure_bind, placed, List.cons_append]

theorem lineLists_script {front : List Char} (h : front ++ ['\n'] = script as) :
    lineLists front = lineLists (script as) := by
  rcases List.eq_nil_or_concat as with rfl | ⟨init, a, rfl⟩
  · cases List.append_ne_nil_of_right_ne_nil front (List.cons_ne_nil _ _) h
  · have hscript : script (init.concat a) =
        script init ++ a.opening ++ a.body ++ [a.quote] ++ ['\n'] := by
      simp [script, Assignment.chars]
    rw [← h, lineLists_concat _ a.isQuote.ne.2.1 a.isQuote.ne.2.2]
    rw [hscript] at h
    rw [List.append_cancel_right h, List.getLast?_concat]

theorem statements_render {text : String} (h : text = render as ∨ text ++ "\n" = render as) :
    statements text = .ok (placed 1 as) := by
  have hlines : lineLists text.toList = lineLists (script as) := by
    rcases h with rfl | h
    · rw [render, String.toList_ofList]
    · refine lineLists_script ?_
      have hchars := congrArg String.toList h
      rwa [String.toList_append, render, String.toList_ofList, String.toList_ofList] at hchars
  have hread := readLines_script 1 as []
  rw [List.append_nil] at hread
  rw [statements, hlines, hread, lineLists_line List.not_mem_nil, if_pos rfl, readLines]
  simp

theorem statements_unclosed (as : List Assignment) (a : Assignment) {ending : String}
    (h : ending = "" ∨ ending = "\n") :
    statements (render as ++ a.renderUnclosed ++ ending) = .error a.name := by
  have henclosed : Enclosed a.quote (a.body ++ ending.toList) := by
    rcases h with rfl | rfl
    · simpa using a.enclosed
    · exact a.enclosed.concat a.isQuote.ne.2.1.symm (by decide)
  have hchars : (render as ++ a.renderUnclosed ++ ending).toList =
      script as ++ (a.opening ++ (a.body ++ ending.toList)) := by
    simp [render, Assignment.renderUnclosed]
  rw [statements, hchars, readLines_script, a.readLines_opening_unclosed henclosed]
  rfl

/-! ## What a script sets -/

theorem placed_concat (number : ℕ) (as : List Assignment) (a : Assignment) :
    placed number (as ++ [a]) =
      placed number as ++ [a.statement (number + (script as).count '\n')] := by
  induction as generalizing number with
  | nil => rfl
  | cons b as ih =>
    rw [List.cons_append, placed, ih, placed, script_cons, List.count_append, Nat.add_assoc]
    rfl

theorem lookup_apply (vars : Variables) (a : Assignment) (number : ℕ) (name : String) :
    (vars.apply (a.statement number)).lookup name = a.apply name (vars.lookup name) := by
  have hset (value : List Char) : (vars.set a.name value).lookup name =
      if a.name = name then some value else vars.lookup name := by
    rw [Variables.set, List.lookup_cons]
    by_cases hname : a.name = name
    · rw [if_pos hname, hname, beq_self_eq_true]
    · rw [if_neg hname, beq_false_of_ne (Ne.symm hname), lookup_filter_of_ne (Ne.symm hname)]
  rw [Assignment.statement, Assignment.apply]
  cases a.append with
  | false => exact hset a.body
  | true =>
    rw [Variables.apply, hset, if_pos rfl]
    split
    case isTrue hname => rw [hname]
    case isFalse => rfl

theorem lookup_ofStatements (number : ℕ) (as : List Assignment) (name : String) :
    (Variables.ofStatements (placed number as)).lookup name = valueOf name as := by
  induction as using List.reverseRecOn with
  | nil => rfl
  | append_singleton as a ih =>
    rw [placed_concat, Variables.ofStatements, List.foldl_append, List.foldl_cons, List.foldl_nil,
      lookup_apply, valueOf, List.foldl_append, List.foldl_cons, List.foldl_nil]
    exact congrArg (a.apply name) ih

theorem eclasses_placed (number : ℕ) (as : List Assignment) : eclasses (placed number as) = [] := by
  induction as generalizing number with
  | nil => rfl
  | cons a as ih => exact ih _

theorem lookup_firstLines_concat (statements : List Statement) (a : Assignment) (number : ℕ) :
    (firstLines (statements ++ [a.statement number])).lookup name =
      ((firstLines statements).lookup name).or (if a.name = name then some number else none) := by
  have hstep : firstLines (statements ++ [a.statement number]) =
      if ((firstLines statements).lookup a.name).isSome then firstLines statements
      else firstLines statements ++ [(a.name, number)] := by
    rw [firstLines, List.foldl_append]
    rfl
  rw [hstep]
  by_cases hname : a.name = name
  · rw [hname, if_pos rfl]
    cases hlookup : (firstLines statements).lookup name with
    | none => simp [List.lookup_append, hlookup]
    | some line => simp [hlookup]
  · rw [if_neg hname, Option.or_none]
    split
    · rfl
    · simp [List.lookup_append, List.lookup_cons, beq_false_of_ne (Ne.symm hname)]

theorem firstLine?_concat (name : String) (number : ℕ) (as : List Assignment) (a : Assignment) :
    firstLine? name number (as ++ [a]) = (firstLine? name number as).or
      (if a.name = name then some (number + (script as).count '\n') else none) := by
  induction as generalizing number with
  | nil => rfl
  | cons b as ih =>
    rw [List.cons_append, firstLine?, firstLine?]
    split
    case isTrue => rfl
    case isFalse => rw [ih, script_cons, List.count_append, Nat.add_assoc]

theorem lookup_firstLines (number : ℕ) (as : List Assignment) (name : String) :
    (firstLines (placed number as)).lookup name = firstLine? name number as := by
  induction as using List.reverseRecOn with
  | nil => rfl
  | append_singleton as a ih =>
    rw [placed_concat, lookup_firstLines_concat, ih, firstLine?_concat]

theorem firstLine?_eq_some_iff : firstLine? name number as = some line ↔
    ∃ before a after, as = before ++ a :: after ∧ a.name = name ∧
      (∀ b ∈ before, b.name ≠ name) ∧ line = number + (script before).count '\n' := by
  induction as generalizing number with
  | nil =>
    refine iff_of_false nofun ?_
    rintro ⟨before, a, after, h, -⟩
    cases before <;> cases h
  | cons b as ih =>
    rw [firstLine?]
    split
    case isTrue hname =>
      constructor
      · rintro ⟨⟩
        exact ⟨[], b, as, rfl, hname, nofun, rfl⟩
      · rintro ⟨before, a, after, h, -, hbefore, rfl⟩
        cases before with
        | nil => rfl
        | cons c before =>
          cases h
          exact absurd hname (hbefore _ List.mem_cons_self)
    case isFalse hname =>
      rw [ih]
      constructor
      · rintro ⟨before, a, after, rfl, ha, hbefore, rfl⟩
        refine ⟨b :: before, a, after, rfl, ha, ?_, ?_⟩
        · rintro c (_ | ⟨_, hc⟩)
          · exact hname
          · exact hbefore c hc
        · rw [script_cons, List.count_append, Nat.add_assoc]
      · rintro ⟨before, a, after, h, ha, hbefore, rfl⟩
        cases before with
        | nil =>
          cases h
          exact absurd ha hname
        | cons c before =>
          cases h
          refine ⟨before, a, after, rfl, ha, fun d hd => hbefore d (List.mem_cons_of_mem _ hd), ?_⟩
          rw [script_cons, List.count_append, Nat.add_assoc]

/--
A script made of assignments is read as these, whatever the lines of their values look like. Every
variable has the value that its assignments give it in turn, and the line of the first of them. A
last value that is not closed is an error and names its variable.
-/
theorem parseAt_render (path : String) (as : List Assignment) :
    (∀ text, text = render as ∨ text ++ "\n" = render as →
      statements text = .ok (placed 1 as) ∧ ∃ m, parseAt path text = .ok m ∧ m.inherited = [] ∧
        m.depends = (dependencyVariables.filterMap fun name =>
          (valueOf name as).map fun value => (name, String.ofList value)) ∧
        m.slot = String.ofList ((valueOf "SLOT" as).getD []) ∧
        m.requiredUse = String.ofList ((valueOf "REQUIRED_USE" as).getD []) ∧
        ∀ name line, m.lineOf? name = some line ↔
          ∃ before a after, as = before ++ a :: after ∧ a.name = name ∧
            (∀ b ∈ before, b.name ≠ name) ∧ line = 1 + (script before).count '\n') ∧
    ∀ (a : Assignment) (ending : String), ending = "" ∨ ending = "\n" →
      parseAt path (render as ++ a.renderUnclosed ++ ending) = .error (.unterminated path a.name) := by
  constructor
  · intro text htext
    have hstatements := statements_render htext
    refine ⟨hstatements, ?_⟩
    rw [parseAt, parse, hstatements]
    refine ⟨_, rfl, ?_⟩
    simp only [lookup_ofStatements, eclasses_placed, true_and, Metadata.lineOf?, lookup_firstLines]
    exact fun _ _ => firstLine?_eq_some_iff
  · intro a ending hending
    rw [parseAt, parse, statements_unclosed as a hending]
    rfl

theorem noReturn_of_not_mem {body : List Char} (h : '\r' ∉ body) : ¬['\r', '\n'] <:+: body :=
  fun hpair => h (hpair.subset List.mem_cons_self)

def disguised : List Assignment :=
  [{ name := "DEPEND", append := false, quote := '"', body := "a\nSLOT='1'\\\ninherit b".toList
     isIdentifier := by decide
     isQuote := .inl rfl
     enclosed := (enclosed_iff (.inl rfl)).2 (by decide)
     noReturn := noReturn_of_not_mem (by decide) },
   { name := "DEPEND", append := true, quote := '\'', body := "c".toList
     isIdentifier := by decide
     isQuote := .inr rfl
     enclosed := (enclosed_iff (.inr rfl)).2 (by decide)
     noReturn := noReturn_of_not_mem (by decide) }]

theorem parseAt_render_disguised :
    render disguised = "DEPEND=\"a\nSLOT='1'\\\ninherit b\"\nDEPEND+='c'\n" ∧
    ∃ m, parseAt "foo-1.ebuild" (render disguised) = .ok m ∧ m.inherited = [] ∧ m.slot = "" ∧
      m.depends = [("DEPEND", "a\nSLOT='1'\\\ninherit b c")] := by
  obtain ⟨-, m, hparse, hinherited, hdepends, hslot, -⟩ :=
    (parseAt_render "foo-1.ebuild" disguised).1 (render disguised) (.inl rfl)
  exact ⟨by decide, m, hparse, hinherited, hslot.trans (by decide), hdepends.trans (by decide)⟩

end EbuildAudit.Ebuild
