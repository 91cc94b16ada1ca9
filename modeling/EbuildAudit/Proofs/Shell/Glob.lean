import EbuildAudit.Proofs.Basic
import EbuildAudit.Shell.Word
import Mathlib.Data.List.DropRight
import Mathlib.Data.List.Forall2

/-!
Patterns for file names. A word is one if a wildcard stands in its unquoted text, or brackets with
nothing but plain text between them. Text may be cut into pieces anywhere but behind a backslash that
escapes: at the end of a piece such a backslash stands for itself.
-/

namespace EbuildAudit.Shell

/-- An odd number of backslashes at the end of a text escapes the character that comes next. -/
def EscapesNext (cs : List Char) : Prop :=
  (cs.rtakeWhile (· = '\\')).length % 2 = 1

instance (cs : List Char) : Decidable (EscapesNext cs) :=
  inferInstanceAs (Decidable (_ = 1))

/-- The word is cut at a character of its unquoted text, and no backslash escapes the character. -/
def CutAt (c : Char) (word before after : List Piece) : Prop :=
  ∃ front back cs ds i, ¬EscapesNext cs ∧ word = front ++ .text (cs ++ c :: ds) false i :: back ∧
    before = front ++ [.text cs false i] ∧ after = .text ds false i :: back

namespace Piece

def IsPlain : Piece → Prop
  | .text cs false _ => '\\' ∉ cs
  | _ => False

def Unmarked : Piece → Prop
  | .text cs false _ => ∀ c ∈ cs, ¬isMark c
  | _ => True

instance : DecidablePred Unmarked
  | .text cs false _ => List.decidableBAll (¬isMark ·) cs
  | .text _ true _ | .var .. | .substitution _ => .isTrue trivial

def quote : Piece → Piece
  | .text cs _ i => .text cs true i
  | x => x

end Piece

/-- There is a wildcard, or there are brackets with a character and only plain text between them. -/
def HasGlob (word : List Piece) : Prop :=
  (∃ before after, CutAt '*' word before after ∨ CutAt '?' word before after) ∨
    ∃ before rest between after, CutAt '[' word before rest ∧ CutAt ']' rest between after ∧
      (∀ x ∈ between, x.IsPlain) ∧ ∃ c cs i, .text (c :: cs) false i ∈ between

/-- The same word with some more of its text in quotes. -/
def Quoting : List Piece → List Piece → Prop :=
  List.Forall₂ fun x y => y = x ∨ y = x.quote

variable {c d : Char} {cs ds : List Char} {x y : Piece}
  {word marked front back before between after rest : List Piece} {i j k : NodeInfo}

/-! ## Escapes -/

theorem rtakeWhile_cons (p : Char → Bool) (c : Char) (cs : List Char) :
    (c :: cs).rtakeWhile p = if cs.all p then (if p c then c :: cs else cs)
      else cs.rtakeWhile p := by
  have hall : (cs.reverse.takeWhile p).length = cs.reverse.length ↔ cs.all p := by
    rw [List.all_eq_true]
    constructor
    · intro hlength
      have hself := (List.takeWhile_prefix p).eq_of_length hlength
      exact fun d hd => List.takeWhile_eq_self_iff.1 hself d (List.mem_reverse.2 hd)
    · intro hcs
      rw [List.takeWhile_eq_self_iff.2 fun d hd => hcs d (List.mem_reverse.1 hd)]
  rw [List.rtakeWhile, List.reverse_cons, List.takeWhile_append, List.rtakeWhile]
  simp only [hall]
  split
  · cases hc : p c <;> simp [hc]
  · rfl

@[simp]
theorem not_escapesNext_nil : ¬EscapesNext [] := by
  decide

@[simp]
theorem escapesNext_backslash : EscapesNext ['\\'] := by
  decide

theorem escapesNext_cons (h : c ≠ '\\') : EscapesNext (c :: cs) ↔ EscapesNext cs := by
  rw [EscapesNext, EscapesNext, rtakeWhile_cons]
  split
  case isTrue hall =>
    rw [if_neg (by simpa using h), List.rtakeWhile_eq_self_iff.2 (List.all_eq_true.1 hall)]
  case isFalse => rfl

@[simp]
theorem escapesNext_escape : EscapesNext ('\\' :: c :: cs) ↔ EscapesNext cs := by
  by_cases h : c = '\\'
  · subst h
    rw [EscapesNext, EscapesNext, rtakeWhile_cons]
    split
    case isTrue hall =>
      have hcs : cs.rtakeWhile (· = '\\') = cs :=
        List.rtakeWhile_eq_self_iff.2 fun d hd =>
          List.all_eq_true.1 hall d (List.mem_cons_of_mem _ hd)
      rw [hcs]
      simp
      omega
    case isFalse hall =>
      rw [rtakeWhile_cons, if_neg fun hcs => hall (by simpa using hcs)]
  · rw [EscapesNext, rtakeWhile_cons,
      if_neg fun hall => h (by simpa using List.all_eq_true.1 hall c List.mem_cons_self)]
    exact escapesNext_cons h

theorem unescaped_cons (h : c ≠ '\\') : unescaped (c :: cs) = c :: unescaped cs := by
  cases cs <;> simp [unescaped, h]

theorem ne_backslash (hpair : ∀ d ds, c = '\\' → cs = d :: ds → False)
    (hlast : c = '\\' → cs = [] → False) : c ≠ '\\' := by
  rintro rfl
  cases cs with
  | nil => exact hlast rfl rfl
  | cons d cs => exact hpair d cs rfl rfl

theorem ne_literalMark (h : ¬isMark c) : c ≠ literalMark := by
  rintro rfl
  exact h rfl

theorem unescaped_append (h : ¬EscapesNext cs) :
    unescaped (cs ++ ds) = unescaped cs ++ unescaped ds := by
  fun_induction unescaped cs with
  | case1 c cs ih =>
    rw [escapesNext_escape] at h
    exact congrArg (literalMark :: ·) (ih h)
  | case2 => exact absurd escapesNext_backslash h
  | case3 c cs hpair hlast ih =>
    have hc : c ≠ '\\' := ne_backslash hpair hlast
    rw [escapesNext_cons hc] at h
    rw [List.cons_append, unescaped_cons hc, ih h, List.cons_append]
  | case4 => rfl

theorem unescaped_append_cons (h : EscapesNext cs) :
    unescaped (cs ++ c :: ds) = unescaped cs ++ unescaped ds := by
  fun_induction unescaped cs with
  | case1 d cs ih =>
    rw [escapesNext_escape] at h
    exact congrArg (literalMark :: ·) (ih h)
  | case2 => rfl
  | case3 d cs hpair hlast ih =>
    have hd : d ≠ '\\' := ne_backslash hpair hlast
    rw [escapesNext_cons hd] at h
    rw [List.cons_append, unescaped_cons hd, ih h, List.cons_append]
  | case4 => exact absurd h not_escapesNext_nil

theorem unescaped_eq_append_cons_iff (hmark : ¬isMark c) (hc : c ≠ '\\') {us vs : List Char} :
    unescaped cs = us ++ c :: vs ↔
      ∃ as bs, cs = as ++ c :: bs ∧ ¬EscapesNext as ∧ unescaped as = us ∧ unescaped bs = vs := by
  constructor
  · intro h
    fun_induction unescaped cs generalizing us with
    | case1 d cs ih =>
      rcases List.cons_eq_append_iff.1 h with ⟨-, h⟩ | ⟨us, rfl, hrest⟩
      · exact absurd (List.cons.inj h).1 (ne_literalMark hmark)
      · obtain ⟨as, bs, rfl, has, rfl, hbs⟩ := ih hrest
        exact ⟨'\\' :: d :: as, bs, rfl, mt escapesNext_escape.1 has, rfl, hbs⟩
    | case2 =>
      rcases List.cons_eq_append_iff.1 h with ⟨-, h⟩ | ⟨us, -, hrest⟩
      · exact absurd (List.cons.inj h).1 (ne_literalMark hmark)
      · cases us <;> cases hrest
    | case3 d cs hpair hlast ih =>
      have hd : d ≠ '\\' := ne_backslash hpair hlast
      rcases List.cons_eq_append_iff.1 h with ⟨rfl, hhead⟩ | ⟨us, rfl, hrest⟩
      · obtain ⟨rfl, rfl⟩ := List.cons.inj hhead
        exact ⟨[], cs, rfl, not_escapesNext_nil, rfl, rfl⟩
      · obtain ⟨as, bs, rfl, has, rfl, hbs⟩ := ih hrest
        exact ⟨d :: as, bs, rfl, mt (escapesNext_cons hd).1 has, unescaped_cons hd, hbs⟩
    | case4 => cases us <;> cases h
  · rintro ⟨as, bs, rfl, has, rfl, rfl⟩
    rw [unescaped_append has, unescaped_cons hc]

theorem unescaped_eq_self (h : '\\' ∉ cs) : unescaped cs = cs := by
  induction cs with
  | nil => rfl
  | cons c cs ih =>
    rw [List.mem_cons, not_or] at h
    rw [unescaped_cons (Ne.symm h.1), ih h.2]

theorem not_mem_of_unescaped (h : ∀ c ∈ unescaped cs, ¬isMark c) : '\\' ∉ cs := by
  fun_induction unescaped cs with
  | case1 => exact absurd rfl (h literalMark List.mem_cons_self)
  | case2 => exact absurd rfl (h literalMark List.mem_cons_self)
  | case3 c cs hpair hlast ih =>
    rw [List.mem_cons, not_or]
    exact ⟨Ne.symm (ne_backslash hpair hlast), ih (List.forall_mem_cons.1 h).2⟩
  | case4 => exact List.not_mem_nil

/-! ## Skeletons -/

def Closes (least : Nat) (s : List Char) : Prop :=
  ∃ inner back, s = inner ++ ']' :: back ∧ least ≤ inner.length ∧ ∀ c ∈ inner, ¬isMark c

def HasBrackets (s : List Char) : Prop :=
  ∃ front rest, s = front ++ '[' :: rest ∧ Closes 1 rest

def ClassState.Finds : ClassState → List Char → Prop
  | .closed, s => HasBrackets s
  | .empty, s => Closes 1 s ∨ HasBrackets s
  | .filled, s => Closes 0 s ∨ HasBrackets s

theorem closes_cons {least : Nat} : Closes least (c :: cs) ↔
    least = 0 ∧ c = ']' ∨ ¬isMark c ∧ Closes (least - 1) cs := by
  constructor
  · rintro ⟨inner, back, hs, hlength, hinner⟩
    rcases List.cons_eq_append_iff.1 hs with ⟨rfl, hback⟩ | ⟨inner, rfl, hcs⟩
    · exact .inl ⟨Nat.le_zero.1 hlength, (List.cons.inj hback).1.symm⟩
    · rw [List.forall_mem_cons] at hinner
      rw [List.length_cons] at hlength
      exact .inr ⟨hinner.1, inner, back, hcs, by omega, hinner.2⟩
  · rintro (⟨rfl, rfl⟩ | ⟨hc, inner, back, rfl, hlength, hinner⟩)
    · exact ⟨[], cs, rfl, Nat.le_refl _, nofun⟩
    · refine ⟨c :: inner, back, rfl, ?_, List.forall_mem_cons.2 ⟨hc, hinner⟩⟩
      rw [List.length_cons]
      omega

theorem not_closes_nil {least : Nat} : ¬Closes least [] := by
  rintro ⟨inner, back, h, -⟩
  cases inner <;> cases h

theorem Closes.zero {least : Nat} (h : Closes least cs) : Closes 0 cs := by
  obtain ⟨inner, back, hs, -, hinner⟩ := h
  exact ⟨inner, back, hs, Nat.zero_le _, hinner⟩

theorem hasBrackets_cons : HasBrackets (c :: cs) ↔ c = '[' ∧ Closes 1 cs ∨ HasBrackets cs := by
  constructor
  · rintro ⟨front, rest, hs, hrest⟩
    rcases List.cons_eq_append_iff.1 hs with ⟨rfl, h⟩ | ⟨front, rfl, hcs⟩
    · obtain ⟨rfl, rfl⟩ := List.cons.inj h
      exact .inl ⟨rfl, hrest⟩
    · exact .inr ⟨front, rest, hcs, hrest⟩
  · rintro (⟨rfl, hrest⟩ | ⟨front, rest, rfl, hrest⟩)
    · exact ⟨[], cs, rfl, hrest⟩
    · exact ⟨c :: front, rest, rfl, hrest⟩

theorem not_hasBrackets_nil : ¬HasBrackets [] := by
  rintro ⟨front, rest, h, -⟩
  cases front <;> cases h

theorem hasClass_iff {state : ClassState} : hasClass state cs = true ↔ state.Finds cs := by
  induction cs generalizing state with
  | nil => cases state <;> simp [hasClass, ClassState.Finds, not_closes_nil, not_hasBrackets_nil]
  | cons c cs ih =>
    rw [hasClass.eq_def]
    simp only
    split
    case isTrue hmark =>
      have hopen : c ≠ '[' := by rintro rfl; cases hmark
      have hclose : c ≠ ']' := by rintro rfl; cases hmark
      rw [ih]
      cases state <;>
        simp [ClassState.Finds, closes_cons, hasBrackets_cons, hmark, hopen, hclose]
    case isFalse hmark =>
      have hzero : Closes 1 cs → Closes 0 cs := Closes.zero
      cases state with
      | closed =>
        rw [ih]
        by_cases hopen : c = '[' <;> simp [ClassState.Finds, hasBrackets_cons, hopen]
      | empty =>
        rw [ih]
        grind [ClassState.Finds, closes_cons, hasBrackets_cons]
      | filled =>
        rw [Bool.or_eq_true, ih]
        grind [ClassState.Finds, closes_cons, hasBrackets_cons]

def IsPattern (skeleton : List Char) : Prop :=
  ('*' ∈ skeleton ∨ '?' ∈ skeleton) ∨ HasBrackets skeleton

theorem hasUnquotedGlob_iff_isPattern :
    hasUnquotedGlob word = true ↔ IsPattern (word.flatMap Piece.skeleton) := by
  rw [hasUnquotedGlob, Bool.or_eq_true, hasClass_iff, List.any_eq_true]
  refine or_congr ?_ Iff.rfl
  simp [and_or_left, exists_or]

theorem IsPattern.of_infix (h : IsPattern cs) (hds : cs <:+: ds) : IsPattern ds := by
  obtain ⟨us, vs, rfl⟩ := hds
  rcases h with h | ⟨front, rest, rfl, inner, back, rfl, hinner⟩
  · refine .inl (h.imp ?_ ?_) <;> simp +contextual
  · exact .inr ⟨us ++ front, inner ++ ']' :: (back ++ vs), by simp, inner, back ++ vs, rfl, hinner⟩

/-! ## Cuts -/

namespace Piece

theorem exists_of_mem_skeleton (hmark : ¬isMark c) (h : c ∈ x.skeleton) :
    ∃ cs i, x = .text cs false i := by
  cases x with
  | text cs quoted i =>
    cases quoted with
    | false => exact ⟨cs, i, rfl⟩
    | true => exact absurd (List.mem_singleton.1 h ▸ rfl) hmark
  | var => exact absurd (List.mem_singleton.1 h ▸ rfl) hmark
  | substitution => exact absurd (List.mem_singleton.1 h ▸ rfl) hmark

theorem isPlain_of_skeleton (h : ∀ c ∈ x.skeleton, ¬isMark c) : x.IsPlain := by
  cases x with
  | text cs quoted i =>
    cases quoted with
    | false => exact not_mem_of_unescaped h
    | true => exact absurd rfl (h _ List.mem_cons_self)
  | var => exact absurd rfl (h _ List.mem_cons_self)
  | substitution => exact absurd rfl (h _ List.mem_cons_self)

theorem IsPlain.exists_text (h : x.IsPlain) : ∃ cs i, x = .text cs false i ∧ x.skeleton = cs := by
  cases x with
  | text cs quoted i =>
    cases quoted with
    | false => exact ⟨cs, i, rfl, unescaped_eq_self h⟩
    | true => cases h
  | var => cases h
  | substitution => cases h

end Piece

theorem flatMap_skeleton_eq_iff (hmark : ¬isMark c) (hc : c ≠ '\\') {us vs : List Char} :
    word.flatMap Piece.skeleton = us ++ c :: vs ↔ ∃ before after, CutAt c word before after ∧
      before.flatMap Piece.skeleton = us ∧ after.flatMap Piece.skeleton = vs := by
  rw [flatMap_eq_append_cons_iff]
  constructor
  · rintro ⟨front, x, back, us, vs, rfl, hx, rfl, rfl⟩
    have hmem : c ∈ x.skeleton := by simp [hx]
    obtain ⟨cs, i, rfl⟩ := Piece.exists_of_mem_skeleton hmark hmem
    obtain ⟨as, bs, rfl, has, rfl, rfl⟩ := (unescaped_eq_append_cons_iff hmark hc).1 hx
    exact ⟨_, _, ⟨front, back, as, bs, i, has, rfl, rfl, rfl⟩, by simp [Piece.skeleton], rfl⟩
  · rintro ⟨before, after, ⟨front, back, as, bs, i, has, rfl, rfl, rfl⟩, rfl, rfl⟩
    refine ⟨front, _, back, unescaped as, unescaped bs, rfl, ?_, by simp [Piece.skeleton], rfl⟩
    exact (unescaped_eq_append_cons_iff hmark hc).2 ⟨as, bs, rfl, has, rfl, rfl⟩

theorem mem_flatMap_skeleton_iff (hmark : ¬isMark c) (hc : c ≠ '\\') :
    c ∈ word.flatMap Piece.skeleton ↔ ∃ before after, CutAt c word before after := by
  rw [List.mem_iff_append]
  simp only [flatMap_skeleton_eq_iff hmark hc]
  constructor
  · rintro ⟨-, -, before, after, hcut, -⟩
    exact ⟨before, after, hcut⟩
  · rintro ⟨before, after, hcut⟩
    exact ⟨_, _, before, after, hcut, rfl, rfl⟩

theorem CutAt.unmarked (h : CutAt c word before after) (hword : ∀ x ∈ word, x.Unmarked) :
    (∀ x ∈ before, x.Unmarked) ∧ ∀ x ∈ after, x.Unmarked := by
  obtain ⟨front, back, cs, ds, i, -, rfl, rfl, rfl⟩ := h
  simp only [List.forall_mem_append, List.forall_mem_cons, Piece.Unmarked] at hword ⊢
  obtain ⟨hfront, ⟨hcs, -, hds⟩, hback⟩ := hword
  exact ⟨⟨hfront, hcs, nofun⟩, hds, hback⟩

theorem hasBrackets_of_skeleton (h : HasBrackets (word.flatMap Piece.skeleton)) :
    ∃ before rest between after, CutAt '[' word before rest ∧ CutAt ']' rest between after ∧
      (∀ x ∈ between, x.IsPlain) ∧ ∃ c cs i, .text (c :: cs) false i ∈ between := by
  obtain ⟨front, rest, hskeleton, inner, back, rfl, hlength, hinner⟩ := h
  obtain ⟨before, rest, hopen, -, hrest⟩ :=
    (flatMap_skeleton_eq_iff (by decide) (by decide)).1 hskeleton
  obtain ⟨between, after, hclose, rfl, -⟩ :=
    (flatMap_skeleton_eq_iff (by decide) (by decide)).1 hrest
  have hplain : ∀ x ∈ between, x.IsPlain := fun x hx => Piece.isPlain_of_skeleton fun c hc =>
    hinner c (List.mem_flatMap_of_mem hx hc)
  refine ⟨before, rest, between, after, hopen, hclose, hplain, ?_⟩
  obtain ⟨c, hc⟩ := List.exists_mem_of_length_pos hlength
  obtain ⟨x, hx, hcx⟩ := List.mem_flatMap.1 hc
  obtain ⟨cs, i, rfl, hcs⟩ := (hplain x hx).exists_text
  rw [hcs] at hcx
  cases cs with
  | nil => cases hcx
  | cons d cs => exact ⟨d, cs, i, hx⟩

theorem hasBrackets_of_cuts {e : Char} (hword : ∀ x ∈ word, x.Unmarked)
    (hopen : CutAt '[' word before rest) (hclose : CutAt ']' rest between after)
    (hplain : ∀ x ∈ between, x.IsPlain) (hx : .text (e :: cs) false i ∈ between) :
    HasBrackets (word.flatMap Piece.skeleton) := by
  have hbetween : ∀ x ∈ between, x.Unmarked := (hclose.unmarked (hopen.unmarked hword).2).1
  refine ⟨_, _, (flatMap_skeleton_eq_iff (by decide) (by decide)).2
    ⟨before, rest, hopen, rfl, rfl⟩, between.flatMap Piece.skeleton, _,
    (flatMap_skeleton_eq_iff (by decide) (by decide)).2 ⟨between, after, hclose, rfl, rfl⟩, ?_, ?_⟩
  · have hmem : e ∈ between.flatMap Piece.skeleton := by
      refine List.mem_flatMap_of_mem hx ?_
      rw [Piece.skeleton, unescaped_eq_self (hplain _ hx)]
      exact List.mem_cons_self
    exact List.length_pos_of_mem hmem
  · intro c hc
    obtain ⟨x, hx, hcx⟩ := List.mem_flatMap.1 hc
    obtain ⟨cs, i, rfl, hcs⟩ := (hplain x hx).exists_text
    rw [hcs] at hcx
    exact hbetween _ hx c hcx

theorem HasGlob.of_hasUnquotedGlob (h : hasUnquotedGlob word = true) : HasGlob word := by
  rcases hasUnquotedGlob_iff_isPattern.1 h with (hstar | hquery) | hbrackets
  · obtain ⟨before, after, hcut⟩ := (mem_flatMap_skeleton_iff (by decide) (by decide)).1 hstar
    exact .inl ⟨before, after, .inl hcut⟩
  · obtain ⟨before, after, hcut⟩ := (mem_flatMap_skeleton_iff (by decide) (by decide)).1 hquery
    exact .inl ⟨before, after, .inr hcut⟩
  · exact .inr (hasBrackets_of_skeleton hbrackets)

theorem HasGlob.hasUnquotedGlob (h : HasGlob word) (hword : ∀ x ∈ word, x.Unmarked) :
    hasUnquotedGlob word = true := by
  rw [hasUnquotedGlob_iff_isPattern]
  rcases h with ⟨before, after, hstar | hquery⟩ |
    ⟨before, rest, between, after, hopen, hclose, hplain, c, cs, i, hx⟩
  · exact .inl (.inl ((mem_flatMap_skeleton_iff (by decide) (by decide)).2 ⟨before, after, hstar⟩))
  · exact .inl (.inr ((mem_flatMap_skeleton_iff (by decide) (by decide)).2 ⟨before, after, hquery⟩))
  · exact .inr (hasBrackets_of_cuts hword hopen hclose hplain hx)

/-! ## More quotes -/

theorem exists_of_forall₂_append_cons {α β : Type} {R : α → β → Prop} {l : List α} {us vs : List β}
    {b : β} (h : List.Forall₂ R l (us ++ b :: vs)) : ∃ front x back, l = front ++ x :: back ∧
      List.Forall₂ R front us ∧ R x b ∧ List.Forall₂ R back vs := by
  have hdrop := List.forall₂_drop_append l us (b :: vs) h
  obtain ⟨x, back, hx, hback, hl⟩ := List.forall₂_cons_right_iff.1 hdrop
  exact ⟨l.take us.length, x, back, by rw [← hl, List.take_append_drop],
    List.forall₂_take_append l us (b :: vs) h, hx, hback⟩

theorem CutAt.of_quoting (h : CutAt c marked before after) (hquoting : Quoting word marked) :
    ∃ before' after', CutAt c word before' after' ∧ Quoting before' before ∧
      Quoting after' after := by
  obtain ⟨front, back, cs, ds, i, hcs, rfl, rfl, rfl⟩ := h
  obtain ⟨front', x, back', rfl, hfront, hx, hback⟩ := exists_of_forall₂_append_cons hquoting
  have hx : x = .text (cs ++ c :: ds) false i := by
    rcases hx with hx | hx
    · exact hx.symm
    · cases x <;> cases hx
  subst hx
  exact ⟨_, _, ⟨front', back', cs, ds, i, hcs, rfl, rfl, rfl⟩,
    List.rel_append hfront (.cons (.inl rfl) .nil), .cons (.inl rfl) hback⟩

theorem Quoting.eq_of_isPlain (h : Quoting word marked) (hplain : ∀ x ∈ marked, x.IsPlain) :
    word = marked := by
  induction h with
  | nil => rfl
  | @cons x y word marked hy hrest ih =>
    rw [List.forall_mem_cons] at hplain
    rcases hy with rfl | rfl
    · rw [ih hplain.2]
    · cases x <;> cases hplain.1

theorem HasGlob.of_quoting (h : HasGlob marked) (hquoting : Quoting word marked) :
    HasGlob word := by
  rcases h with ⟨before, after, hcut⟩ |
    ⟨before, rest, between, after, hopen, hclose, hplain, hx⟩
  · rcases hcut with hcut | hcut
    · obtain ⟨before, after, hcut, -⟩ := hcut.of_quoting hquoting
      exact .inl ⟨before, after, .inl hcut⟩
    · obtain ⟨before, after, hcut, -⟩ := hcut.of_quoting hquoting
      exact .inl ⟨before, after, .inr hcut⟩
  · obtain ⟨before', rest', hopen', -, hrest⟩ := hopen.of_quoting hquoting
    obtain ⟨between', after', hclose', hbetween, -⟩ := hclose.of_quoting hrest
    obtain rfl := hbetween.eq_of_isPlain hplain
    exact .inr ⟨before', rest', between', after', hopen', hclose', hplain, hx⟩

theorem not_hasGlob_quote : ¬HasGlob (word.map Piece.quote) := by
  have hnot : ∀ {c before after}, ¬CutAt c (word.map Piece.quote) before after := by
    rintro c before after ⟨front, back, cs, ds, i, -, hword, -⟩
    have hmem : Piece.text (cs ++ c :: ds) false i ∈ word.map Piece.quote := by simp [hword]
    obtain ⟨x, -, hx⟩ := List.mem_map.1 hmem
    cases x <;> cases hx
  rintro (⟨before, after, hcut | hcut⟩ | ⟨before, rest, between, after, hcut, -⟩)
  all_goals exact hnot hcut

/--
A word is taken for a pattern exactly if it has a wildcard or brackets that nothing but text stands
between. With more of it in quotes it is no pattern if it was none before, and it is none if all of
its text is in quotes.
-/
theorem hasUnquotedGlob_exact (h : ∀ x ∈ word, x.Unmarked) :
    (hasUnquotedGlob word = true ↔ HasGlob word) ∧
      (∀ marked, Quoting word marked → hasUnquotedGlob marked = true →
        hasUnquotedGlob word = true) ∧
      ∃ marked, Quoting word marked ∧ hasUnquotedGlob marked = false := by
  refine ⟨⟨HasGlob.of_hasUnquotedGlob, fun hglob => hglob.hasUnquotedGlob h⟩,
    fun marked hquoting hmarked => ?_, word.map Piece.quote, ?_, ?_⟩
  · exact ((HasGlob.of_hasUnquotedGlob hmarked).of_quoting hquoting).hasUnquotedGlob h
  · rw [Quoting, List.forall₂_map_right_iff, List.forall₂_same]
    exact fun _ _ => .inr rfl
  · exact Bool.eq_false_iff.2 fun hglob => not_hasGlob_quote (HasGlob.of_hasUnquotedGlob hglob)

def Piece.ofString (s : String) : Piece :=
  .text s.toList false ⟨"word", none, true, 0, 0, 1, 1⟩

def bracketedWord : List Piece :=
  [.var "D" "$D".toList true ⟨"simple_expansion", none, true, 1, 3, 1, 2⟩, .ofString "\\*[a",
    .ofString "]]b", (Piece.ofString "*").quote]

theorem hasUnquotedGlob_exact_straddling :
    (∀ x ∈ bracketedWord, x.Unmarked) ∧ HasGlob bracketedWord := by
  have h : ∀ x ∈ bracketedWord, x.Unmarked := by decide +kernel
  exact ⟨h, (hasUnquotedGlob_exact h).1.1 (by decide +kernel)⟩

/-! ## Text in two pieces -/

theorem prefix_unescaped_append (cs ds : List Char) : unescaped cs <+: unescaped (cs ++ ds) := by
  by_cases h : EscapesNext cs
  · cases ds with
    | nil => simp
    | cons d ds =>
      rw [unescaped_append_cons h]
      exact List.prefix_append ..
  · rw [unescaped_append h]
    exact List.prefix_append ..

theorem isPattern_of_text (h : IsPattern (unescaped cs)) (hcs : cs <+: ds)
    (hword : .text ds false i ∈ word) : IsPattern (word.flatMap Piece.skeleton) := by
  obtain ⟨rest, rfl⟩ := hcs
  exact h.of_infix
    ((prefix_unescaped_append cs rest).isInfix.trans (infix_flatMap hword Piece.skeleton))

/--
Text can be cut in two wherever no backslash escapes what comes next, and nothing changes in any word.
Where one does, there are words that only the cut makes patterns, unless what is before the cut is a
pattern already.
-/
theorem hasUnquotedGlob_cut_iff :
    (∀ front back ds j k,
      hasUnquotedGlob (front ++ .text cs false j :: .text ds false k :: back) =
        hasUnquotedGlob (front ++ .text (cs ++ ds) false i :: back)) ↔
      ¬EscapesNext cs ∨ hasUnquotedGlob [.text cs false i] = true := by
  have hself : [.text cs false i].flatMap Piece.skeleton = unescaped cs := by simp [Piece.skeleton]
  constructor
  · intro h
    by_contra hnot
    rw [not_or, not_not, hasUnquotedGlob_iff_isPattern, hself] at hnot
    obtain ⟨hescapes, hpattern⟩ := hnot
    -- the asterisk is escaped in the whole text, and a wildcard after the cut
    have hwhole : hasUnquotedGlob [.text (cs ++ ['*']) false i] = false := by
      rw [Bool.eq_false_iff, Ne, hasUnquotedGlob_iff_isPattern]
      simpa [Piece.skeleton, unescaped_append_cons hescapes, unescaped] using hpattern
    have hpieces : hasUnquotedGlob [.text cs false i, .text ['*'] false i] = true := by
      rw [hasUnquotedGlob_iff_isPattern]
      exact .inl (.inl (by simp [Piece.skeleton, unescaped]))
    have hsame := h [] [] ['*'] i i
    rw [List.nil_append, List.nil_append, hpieces, hwhole] at hsame
    cases hsame
  · rintro h front back ds j k
    rw [Bool.eq_iff_iff, hasUnquotedGlob_iff_isPattern, hasUnquotedGlob_iff_isPattern]
    rcases h with hcs | hpattern
    · simp [Piece.skeleton, unescaped_append hcs]
    · rw [hasUnquotedGlob_iff_isPattern, hself] at hpattern
      exact iff_of_true (isPattern_of_text (i := j) hpattern (List.prefix_refl _) (by simp))
        (isPattern_of_text (i := i) hpattern (List.prefix_append cs ds) (by simp))

/-- A backslash before an asterisk. -/
theorem not_hasUnquotedGlob_cut_backslash :
    hasUnquotedGlob [.ofString "a\\*b"] = false ∧
      hasUnquotedGlob [.ofString "a\\", .ofString "*b"] = true := by
  decide +kernel

end EbuildAudit.Shell
