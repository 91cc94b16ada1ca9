import EbuildAudit.Text.Basic
import Mathlib.Data.List.Basic

namespace EbuildAudit.Text

/-- A position where a character ends or begins, or an end of the text. -/
def IsBoundary (cs : List Char) (n : Nat) : Prop :=
  (dropBytes? n cs).isSome

instance (cs : List Char) (n : Nat) : Decidable (IsBoundary cs n) :=
  inferInstanceAs (Decidable (_ = true))

def charAt? (cs : List Char) (n : Nat) : Option Char :=
  (dropBytes? n cs).bind List.head?

variable {c : Char} {cs ds rest piece opening closing : List Char} {n start stop : Nat}

@[simp]
theorem byteLength_nil : byteLength [] = 0 :=
  rfl

@[simp]
theorem byteLength_cons : byteLength (c :: cs) = c.utf8Size + byteLength cs :=
  rfl

@[simp]
theorem byteLength_append : byteLength (cs ++ ds) = byteLength cs + byteLength ds := by
  induction cs with
  | nil => simp
  | cons c cs ih => simp [ih, Nat.add_assoc]

theorem dropBytes?_eq_some_iff :
    dropBytes? n cs = some rest ↔ ∃ before, cs = before ++ rest ∧ byteLength before = n := by
  constructor
  · intro h
    fun_induction dropBytes? n cs with
    | case1 cs =>
      cases h
      exact ⟨[], rfl, rfl⟩
    | case2 => cases h
    | case3 n c cs hle ih =>
      obtain ⟨before, rfl, hlength⟩ := ih h
      exact ⟨c :: before, rfl, by rw [byteLength_cons]; omega⟩
    | case4 => cases h
  · rintro ⟨before, rfl, rfl⟩
    induction before with
    | nil => simp [dropBytes?]
    | cons c before ih =>
      obtain ⟨m, hm⟩ := Nat.exists_eq_add_one.2 c.utf8Size_pos
      rw [List.cons_append, byteLength_cons]
      have hstep : c.utf8Size + byteLength before = m + byteLength before + 1 := by omega
      have hleft : m + byteLength before + 1 - c.utf8Size = byteLength before := by omega
      rw [hstep, dropBytes?, if_pos (by omega), hleft, ih]

theorem takeBytes?_eq_some_iff :
    takeBytes? n cs = some piece ↔ ∃ rest, cs = piece ++ rest ∧ byteLength piece = n := by
  constructor
  · intro h
    fun_induction takeBytes? n cs generalizing piece with
    | case1 cs =>
      cases h
      exact ⟨cs, rfl, rfl⟩
    | case2 => cases h
    | case3 n c cs hle ih =>
      obtain ⟨piece, hpiece, rfl⟩ := Option.map_eq_some_iff.1 h
      obtain ⟨rest, rfl, hlength⟩ := ih hpiece
      exact ⟨rest, rfl, by rw [byteLength_cons]; omega⟩
    | case4 => cases h
  · rintro ⟨rest, rfl, rfl⟩
    induction piece with
    | nil => simp [takeBytes?]
    | cons c piece ih =>
      obtain ⟨m, hm⟩ := Nat.exists_eq_add_one.2 c.utf8Size_pos
      rw [List.cons_append, byteLength_cons]
      have hstep : c.utf8Size + byteLength piece = m + byteLength piece + 1 := by omega
      have hleft : m + byteLength piece + 1 - c.utf8Size = byteLength piece := by omega
      rw [hstep, takeBytes?, if_pos (by omega), hleft, ih]
      rfl

theorem slice?_eq_some_iff :
    slice? cs start stop = some piece ↔
      ∃ before after, cs = before ++ (piece ++ after) ∧ byteLength before = start ∧
        start + byteLength piece = stop := by
  rw [slice?]
  constructor
  · intro h
    obtain ⟨hle, h⟩ := Option.ite_none_right_eq_some.1 h
    obtain ⟨rest, hdrop, htake⟩ := Option.bind_eq_some_iff.1 h
    obtain ⟨before, rfl, hbefore⟩ := dropBytes?_eq_some_iff.1 hdrop
    obtain ⟨after, rfl, hpiece⟩ := takeBytes?_eq_some_iff.1 htake
    exact ⟨before, after, rfl, hbefore, by omega⟩
  · rintro ⟨before, after, rfl, hbefore, hpiece⟩
    rw [if_pos (by omega), Option.bind_eq_some_iff]
    exact ⟨piece ++ after, dropBytes?_eq_some_iff.2 ⟨before, rfl, hbefore⟩,
      takeBytes?_eq_some_iff.2 ⟨after, rfl, by omega⟩⟩

theorem le_of_slice? (h : slice? cs start stop = some piece) : start ≤ stop := by
  obtain ⟨-, -, -, -, hstop⟩ := slice?_eq_some_iff.1 h
  omega

theorem eq_nil_iff_of_slice? (h : slice? cs start stop = some piece) :
    piece = [] ↔ start = stop := by
  obtain ⟨-, -, -, -, hstop⟩ := slice?_eq_some_iff.1 h
  cases piece with
  | nil => exact iff_of_true rfl hstop
  | cons c piece =>
    have hpos := c.utf8Size_pos
    rw [byteLength_cons] at hstop
    exact iff_of_false (List.cons_ne_nil _ _) (by omega)

theorem lt_of_slice?_cons (h : slice? cs start stop = some (c :: rest)) : start < stop :=
  Nat.lt_of_le_of_ne (le_of_slice? h) fun heq =>
    List.cons_ne_nil _ _ ((eq_nil_iff_of_slice? h).2 heq)

theorem isBoundary_iff :
    IsBoundary cs n ↔ ∃ before after, cs = before ++ after ∧ byteLength before = n := by
  rw [IsBoundary, Option.isSome_iff_exists]
  constructor
  · rintro ⟨after, h⟩
    obtain ⟨before, hcs, hbefore⟩ := dropBytes?_eq_some_iff.1 h
    exact ⟨before, after, hcs, hbefore⟩
  · rintro ⟨before, after, hcs, hbefore⟩
    exact ⟨after, dropBytes?_eq_some_iff.2 ⟨before, hcs, hbefore⟩⟩

theorem prefix_of_byteLength_le (hcs : cs <+: rest) (hds : ds <+: rest)
    (h : byteLength cs ≤ byteLength ds) : cs <+: ds := by
  rcases List.prefix_or_prefix_of_prefix hcs hds with hprefix | ⟨tail, rfl⟩
  · exact hprefix
  · cases tail with
    | nil => simp
    | cons c tail =>
      have hpos := c.utf8Size_pos
      rw [byteLength_append, byteLength_cons] at h
      omega

theorem exists_slice (hstart : IsBoundary cs start) (hstop : IsBoundary cs stop)
    (h : start ≤ stop) : ∃ piece, slice? cs start stop = some piece := by
  obtain ⟨before, rest, hrest, hbefore⟩ := isBoundary_iff.1 hstart
  obtain ⟨front, after, hafter, hfront⟩ := isBoundary_iff.1 hstop
  obtain ⟨piece, rfl⟩ := prefix_of_byteLength_le ⟨rest, hrest.symm⟩ ⟨after, hafter.symm⟩
    (by omega : byteLength before ≤ byteLength front)
  rw [byteLength_append] at hfront
  exact ⟨piece, slice?_eq_some_iff.2
    ⟨before, after, by rw [hafter, List.append_assoc], hbefore, by omega⟩⟩

theorem slice?_between (h : slice? cs start stop = some (opening ++ (piece ++ closing))) :
    slice? cs (start + byteLength opening) (stop - byteLength closing) = some piece ∧
      start + byteLength opening + byteLength piece + byteLength closing = stop := by
  obtain ⟨before, after, rfl, hbefore, hstop⟩ := slice?_eq_some_iff.1 h
  simp only [byteLength_append] at hstop
  refine ⟨slice?_eq_some_iff.2 ⟨before ++ opening, closing ++ after, ?_, ?_, ?_⟩, by omega⟩
  · simp
  · rw [byteLength_append, hbefore]
  · omega

theorem charAt?_of_slice? (h : slice? cs start stop = some (c :: rest)) :
    charAt? cs start = some c := by
  obtain ⟨before, after, hcs, hbefore, -⟩ := slice?_eq_some_iff.1 h
  rw [charAt?, dropBytes?_eq_some_iff.2 ⟨before, hcs, hbefore⟩]
  rfl

theorem head_eq_of_slice? {d : Char} (h : slice? cs start stop = some (c :: opening))
    (h' : slice? cs start n = some (d :: closing)) : c = d :=
  Option.some.inj ((charAt?_of_slice? h).symm.trans (charAt?_of_slice? h'))

theorem isBoundary_of_slice? (h : slice? cs start stop = some piece) :
    IsBoundary cs start ∧ IsBoundary cs stop := by
  obtain ⟨before, after, rfl, hbefore, hstop⟩ := slice?_eq_some_iff.1 h
  refine ⟨isBoundary_iff.2 ⟨before, piece ++ after, rfl, hbefore⟩,
    isBoundary_iff.2 ⟨before ++ piece, after, by rw [List.append_assoc], ?_⟩⟩
  rw [byteLength_append]
  omega

end EbuildAudit.Text
