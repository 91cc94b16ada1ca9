import EbuildAudit.Dependency.Reference
import Mathlib.Data.List.Infix
import Mathlib.Logic.Function.Iterate
import Mathlib.Logic.Relation

/-!
The punctuation of a use dependency list from which entries were dropped. Two neighbours of which
one is too many are replaced, anywhere in the text and in any order; that comes to an end, and always
to the same one, which is the tidied text.
-/

namespace EbuildAudit.Dependency

open Relation (ReflGen ReflTransGen)

/-- Neighbours of which one is too many, and what is left of them. -/
inductive Surplus : Char → Char → List Char → Prop
  | emptied : Surplus '[' ']' []
  | leading : Surplus '[' ',' ['[']
  | trailing : Surplus ',' ']' [']']
  | doubled : Surplus ',' ',' [',']

inductive Tidying : List Char → List Char → Prop
  | replace {a b : Char} {left : List Char} (before after : List Char) : Surplus a b left →
      Tidying (before ++ a :: b :: after) (before ++ (left ++ after))

def Tidied (cs : List Char) : Prop :=
  ∀ t, ¬Tidying cs t

variable {a b a' b' : Char} {left left' cs t u before after before' after' : List Char}

namespace Surplus

theorem length_le (h : Surplus a b left) : left.length ≤ 1 := by
  cases h <;> simp

theorem unique (h : Surplus a b left) (h' : Surplus a b left') : left = left' := by
  cases h <;> cases h' <;> rfl

theorem overlap (h : Surplus a b left) (h' : Surplus b b' left') : left ++ [b'] = a :: left' := by
  cases h <;> cases h' <;> rfl

end Surplus

namespace Tidying

theorem length_lt (h : Tidying cs t) : t.length < cs.length := by
  cases h with
  | replace before after h =>
    have hleft := h.length_le
    simp only [List.length_append, List.length_cons]
    omega

theorem append (before after : List Char) (h : Tidying cs t) :
    Tidying (before ++ (cs ++ after)) (before ++ (t ++ after)) := by
  cases h with
  | replace front back h => simpa using replace (before ++ front) (back ++ after) h

theorem mem_of_mem {c : Char} (h : Tidying cs t) (hc : c ∈ t) : c ∈ cs := by
  cases h with
  | replace before after h => cases h <;> simp at hc ⊢ <;> tauto

theorem wellFounded : WellFounded (flip Tidying) :=
  Subrelation.wf (fun h => h.length_lt) (measure List.length).wf

theorem join_of_append (before : List Char) {mid : List Char} (h : Surplus a b left)
    (h' : Surplus a' b' left') (heq : a :: b :: after = mid ++ a' :: b' :: after') :
    ∃ u, ReflGen Tidying (before ++ (left ++ after)) u ∧
      ReflGen Tidying (before ++ mid ++ (left' ++ after')) u := by
  match mid, heq with
  | [], heq =>
    obtain ⟨rfl, hrest⟩ := List.cons.inj heq
    obtain ⟨rfl, rfl⟩ := List.cons.inj hrest
    rw [h.unique h', List.append_nil]
    exact ⟨_, .refl, .refl⟩
  | [c], heq =>
    obtain ⟨rfl, hrest⟩ := List.cons.inj heq
    obtain ⟨rfl, rfl⟩ := List.cons.inj hrest
    have hsame : left ++ b' :: after' = a :: (left' ++ after') := by
      rw [← List.singleton_append, ← List.append_assoc, h.overlap h', List.cons_append]
    rw [hsame, List.append_assoc, List.singleton_append]
    exact ⟨_, .refl, .refl⟩
  | c :: d :: mid, heq =>
    obtain ⟨rfl, hrest⟩ := List.cons.inj heq
    obtain ⟨rfl, rfl⟩ := List.cons.inj hrest
    refine ⟨before ++ (left ++ (mid ++ (left' ++ after'))), .single ?_, .single ?_⟩
    · simpa using replace (before ++ (left ++ mid)) after' h'
    · simpa using replace before (mid ++ (left' ++ after')) h

/-- Two texts that come of one by a step each have a step at most to a common one. -/
theorem join (h : Tidying cs t) (h' : Tidying cs u) :
    ∃ v, ReflGen Tidying t v ∧ ReflGen Tidying u v := by
  obtain ⟨before, after, h⟩ := h
  generalize hcs : before ++ _ :: _ :: after = cs at h'
  obtain ⟨before', after', h'⟩ := h'
  rcases List.append_eq_append_iff.1 hcs with ⟨mid, rfl, heq⟩ | ⟨mid, rfl, heq⟩
  · exact join_of_append before h h' heq
  · obtain ⟨v, hright, hleft⟩ := join_of_append before' h' h heq
    exact ⟨v, hleft, hright⟩

end Tidying

theorem tidied_iff : Tidied cs ↔ ∀ a b left, Surplus a b left → ¬[a, b] <:+: cs := by
  constructor
  · rintro h a b left hpair ⟨before, after, rfl⟩
    refine h (before ++ (left ++ after)) ?_
    simpa using Tidying.replace before after hpair
  · rintro h _ ⟨before, after, hpair⟩
    exact h _ _ _ hpair ⟨before, after, by simp⟩

theorem Tidied.eq (h : Tidied cs) (hsteps : ReflTransGen Tidying cs t) : t = cs := by
  rcases hsteps.cases_head with rfl | ⟨u, hstep, -⟩
  · rfl
  · exact absurd hstep (h u)

theorem Tidied.unique (hleft : ReflTransGen Tidying cs t) (hright : ReflTransGen Tidying cs u)
    (ht : Tidied t) (hu : Tidied u) : t = u := by
  obtain ⟨v, htv, huv⟩ := Relation.church_rosser (fun _ _ _ h h' =>
    (h.join h').imp fun _ hv => ⟨hv.1, hv.2.to_reflTransGen⟩) hleft hright
  exact (ht.eq htv).symm.trans (hu.eq huv)

theorem mem_of_steps {c : Char} (h : ReflTransGen Tidying cs t) (hc : c ∈ t) : c ∈ cs := by
  induction h with
  | refl => exact hc
  | tail _ hstep ih => exact ih (hstep.mem_of_mem hc)

theorem length_le_of_steps (h : ReflTransGen Tidying cs t) : t.length ≤ cs.length := by
  induction h with
  | refl => exact Nat.le_refl _
  | tail _ hstep ih => exact hstep.length_lt.le.trans ih

theorem eq_of_steps (h : ReflTransGen Tidying cs t) (hback : ReflTransGen Tidying t u)
    (hsame : u = cs) : t = cs := by
  rcases h.cases_head with rfl | ⟨v, hstep, hrest⟩
  · rfl
  · have hlt := hstep.length_lt
    have hle := length_le_of_steps (hrest.trans hback)
    rw [hsame] at hle
    omega

theorem replacePair_steps (h : Surplus a b left) (cs : List Char) :
    ReflTransGen Tidying cs (replacePair a b left cs) := by
  have hcons {c : Char} {cs t : List Char} (hsteps : ReflTransGen Tidying cs t) :
      ReflTransGen Tidying (c :: cs) (c :: t) :=
    hsteps.lift (c :: ·) fun _ _ hstep => by simpa using hstep.append [c] []
  fun_induction replacePair a b left cs with
  | case1 x y cs hpair ih =>
    obtain ⟨rfl, rfl⟩ := hpair
    have hrest : ReflTransGen Tidying (left ++ cs) (left ++ replacePair x y left cs) :=
      ih.lift (left ++ ·) fun _ _ hstep => by simpa using hstep.append left []
    exact .head (.replace [] cs h) hrest
  | case2 x y cs _ ih => exact hcons ih
  | case3 => exact .refl

theorem not_infix_of_replacePair (h : Surplus a b left) (hsame : replacePair a b left cs = cs) :
    ¬[a, b] <:+: cs := by
  fun_induction replacePair a b left cs with
  | case1 x y cs =>
    have hlength := congrArg List.length hsame
    have hleft := h.length_le
    have hrest := length_le_of_steps (replacePair_steps h cs)
    simp only [List.length_append, List.length_cons] at hlength
    omega
  | case2 x y cs hpair ih =>
    rw [List.infix_cons_iff, not_or]
    refine ⟨fun hprefix => hpair ?_, ih (List.cons.inj hsame).2⟩
    obtain ⟨hfirst, hrest⟩ := List.cons_prefix_cons.1 hprefix
    exact ⟨hfirst.symm, (List.cons_prefix_cons.1 hrest).1.symm⟩
  | case3 cs hshort =>
    intro hinfix
    have hlength := hinfix.length_le
    match cs with
    | [] => simp at hlength
    | [c] => simp at hlength
    | x :: y :: cs => exact hshort x y cs rfl

theorem tidyOnce_steps (cs : List Char) : ReflTransGen Tidying cs (tidyOnce cs) :=
  (replacePair_steps .emptied cs).trans <|
    (replacePair_steps .leading _).trans <|
      (replacePair_steps .trailing _).trans (replacePair_steps .doubled _)

theorem tidied_of_tidyOnce (h : tidyOnce cs = cs) : Tidied cs := by
  have hemptied := eq_of_steps (replacePair_steps .emptied cs) ((replacePair_steps .leading _).trans
    ((replacePair_steps .trailing _).trans (replacePair_steps .doubled _))) h
  rw [tidyOnce, hemptied] at h
  have hleading := eq_of_steps (replacePair_steps .leading cs)
    ((replacePair_steps .trailing _).trans (replacePair_steps .doubled _)) h
  rw [hleading] at h
  have htrailing := eq_of_steps (replacePair_steps .trailing cs) (replacePair_steps .doubled _) h
  rw [htrailing] at h
  rw [tidied_iff]
  intro a b left hpair
  cases hpair with
  | emptied => exact not_infix_of_replacePair .emptied hemptied
  | leading => exact not_infix_of_replacePair .leading hleading
  | trailing => exact not_infix_of_replacePair .trailing htrailing
  | doubled => exact not_infix_of_replacePair .doubled h

theorem Tidied.tidyOnce_eq (h : Tidied cs) : tidyOnce cs = cs :=
  h.eq (tidyOnce_steps cs)

theorem length_tidyOnce_lt (h : tidyOnce cs ≠ cs) : (tidyOnce cs).length < cs.length := by
  rcases (tidyOnce_steps cs).cases_head with hsame | ⟨u, hstep, hrest⟩
  · exact absurd hsame.symm h
  · exact (length_le_of_steps hrest).trans_lt hstep.length_lt

theorem exists_rounds {n : Nat} (h : cs.length ≤ n) :
    ∃ rounds, tidyRounds n cs = tidyOnce^[rounds] cs ∧ Tidied (tidyRounds n cs) ∧
      ∀ m < rounds, tidyOnce (tidyOnce^[m] cs) ≠ tidyOnce^[m] cs := by
  induction n generalizing cs with
  | zero =>
    obtain rfl := List.eq_nil_of_length_eq_zero (Nat.le_zero.1 h)
    exact ⟨0, rfl, tidied_of_tidyOnce rfl, nofun⟩
  | succ n ih =>
    rw [tidyRounds]
    split
    case isTrue hsame => exact ⟨0, rfl, tidied_of_tidyOnce hsame, nofun⟩
    case isFalse hchanged =>
      have hlt := length_tidyOnce_lt hchanged
      obtain ⟨rounds, hrounds, htidied, hbefore⟩ := ih (Nat.le_of_lt_succ (hlt.trans_le h))
      refine ⟨rounds + 1, hrounds, htidied, fun m hm => ?_⟩
      cases m with
      | zero => exact hchanged
      | succ m => exact hbefore m (Nat.lt_of_succ_lt_succ hm)

theorem tidied_tidy (cs : List Char) : Tidied (tidy cs) := by
  obtain ⟨_, -, htidied, -⟩ := exists_rounds (Nat.le_refl cs.length)
  exact htidied

theorem iterate_steps (cs : List Char) (n : Nat) : ReflTransGen Tidying cs (tidyOnce^[n] cs) := by
  induction n with
  | zero => exact .refl
  | succ n ih =>
    rw [Function.iterate_succ_apply']
    exact ih.trans (tidyOnce_steps _)

theorem tidy_steps (cs : List Char) : ReflTransGen Tidying cs (tidy cs) := by
  obtain ⟨rounds, hrounds, -⟩ := exists_rounds (Nat.le_refl cs.length)
  rw [tidy, hrounds]
  exact iterate_steps cs rounds

theorem eq_tidy_iff : t = tidy cs ↔ ReflTransGen Tidying cs t ∧ Tidied t := by
  constructor
  · rintro rfl
    exact ⟨tidy_steps cs, tidied_tidy cs⟩
  · rintro ⟨hsteps, ht⟩
    exact ht.unique hsteps (tidy_steps cs) (tidied_tidy cs)

theorem Tidied.tidy_eq (h : Tidied cs) : tidy cs = cs :=
  (eq_tidy_iff.2 ⟨.refl, h⟩).symm

/--
Rounds of the four replacements are made until one changes nothing. The text is then the only one to
which replacements lead, anywhere in the text and in any order, as long as there are any; and they
come to an end. None of the four pairs is in it, and to tidy it again changes nothing.
-/
theorem tidy_normalizes (cs : List Char) :
    (∃ rounds, tidyOnce^[rounds] cs = tidy cs ∧ tidyOnce (tidy cs) = tidy cs ∧
      ∀ m < rounds, tidyOnce (tidyOnce^[m] cs) ≠ tidyOnce^[m] cs) ∧
    Acc (flip Tidying) cs ∧
    (∀ t, ReflTransGen Tidying cs t ∧ (∀ u, ¬Tidying t u) ↔ t = tidy cs) ∧
    (∀ a b left, Surplus a b left → ¬[a, b] <:+: tidy cs) ∧
    tidy (tidy cs) = tidy cs := by
  have htidied := tidied_tidy cs
  obtain ⟨rounds, hrounds, -, hbefore⟩ := exists_rounds (Nat.le_refl cs.length)
  exact ⟨⟨rounds, hrounds.symm, htidied.tidyOnce_eq, hbefore⟩, Tidying.wellFounded.apply cs,
    fun t => eq_tidy_iff.symm, tidied_iff.1 htidied, htidied.tidy_eq⟩

example : tidy "x/y[,] z[,a,,b,]".toList = "x/y z[a,b]".toList := by
  decide +kernel

end EbuildAudit.Dependency
