import EbuildAudit.Proofs.Shell.Quoting

namespace EbuildAudit.Shell

open Text

def Piece.chars? : Piece → Option (List Char)
  | .text cs .. => some cs
  | .var _ cs .. => some cs
  | .substitution _ => none

structure Stretch where
  start : Nat
  stop : Nat
  piece : Piece
  nested : List Piece

def Stretch.pieces (x : Stretch) : List Piece :=
  x.piece :: x.nested

/-- The piece is the part of the script: text, or an outermost expansion with the variables in it. -/
structure Stretch.Sound (t : Tree) (outer : Node → Prop) (x : Stretch) : Prop where
  chars : ∃ cs, slice? t.source x.start x.stop = some cs ∧ x.piece.chars? = some cs
  nested : x.piece.isVariable = false ∧ x.nested = [] ∨
    ∃ n quoted, outer n ∧ x.start = n.info.start ∧ x.stop = n.info.stop ∧
      x.piece = variablePiece t quoted n.info n.children ∧
      ∀ y ∈ x.nested, ∃ m ∈ Node.preorderAll n.children, isExpansion m.kind ∧
        ∃ quoted, y = variablePiece t quoted m.info m.children

/--
Stretches of the script, one after another, for which the text and the variables among the pieces
stand, and which leave out no byte but the hidden ones.
-/
structure Covering (t : Tree) (outer : Node → Prop) (hidden : Nat → Prop) (start stop : Nat)
    (ps : List Piece) (xs : List Stretch) : Prop where
  pieces : ps.filter (·.chars?.isSome) = xs.flatMap Stretch.pieces
  sound : ∀ x ∈ xs, start ≤ x.start ∧ x.stop ≤ stop ∧ x.Sound t outer
  ordered : xs.Pairwise fun x y => x.stop ≤ y.start
  bytes : ∀ k, start ≤ k → k < stop → ((∃ x ∈ xs, x.start ≤ k ∧ k < x.stop) ↔ ¬hidden k)

inductive Shows (t : Tree) (outer : Node → Prop) (hidden : Nat → Prop) :
    Nat → Nat → List Piece → Prop
  | done (k : Nat) : Shows t outer hidden k k []
  | text {start next stop : Nat} {cs : List Char} {quoted : Bool} {i : NodeInfo} {ps : List Piece} :
      slice? t.source start next = some cs → (∀ k, start ≤ k → k < next → ¬hidden k) →
      Shows t outer hidden next stop ps → Shows t outer hidden start stop (.text cs quoted i :: ps)
  | expansion {n : Node} {stop : Nat} {quoted : Bool} {ps : List Piece} :
      outer n → isExpansion n.kind →
      slice? t.source n.info.start n.info.stop = some (t.chars n.info) →
      (∀ k, n.info.start ≤ k → k < n.info.stop → ¬hidden k) →
      Shows t outer hidden n.info.stop stop ps →
      Shows t outer hidden n.info.start stop (n.nestedVariables t quoted ++ ps)
  | pass {start next stop : Nat} {ps : List Piece} :
      start ≤ next → (∀ k, start ≤ k → k < next → hidden k) → Shows t outer hidden next stop ps →
      Shows t outer hidden start stop ps
  | substitution {start stop : Nat} {quoted : Bool} {ps : List Piece} :
      Shows t outer hidden start stop ps →
      Shows t outer hidden start stop (.substitution quoted :: ps)

variable {t : Tree} {start next stop k : Nat} {outer outer' : Node → Prop}
  {hidden hidden' : Nat → Prop} {ps qs : List Piece}

namespace Shows

theorem le (h : Shows t outer hidden start stop ps) : start ≤ stop := by
  induction h with
  | done => exact Nat.le_refl _
  | text hslice _ _ ih => exact Nat.le_trans (le_of_slice? hslice) ih
  | expansion _ _ hslice _ _ ih => exact Nat.le_trans (le_of_slice? hslice) ih
  | pass hle _ _ ih => exact Nat.le_trans hle ih
  | substitution _ ih => exact ih

theorem append (h : Shows t outer hidden start next ps) (h' : Shows t outer hidden next stop qs) :
    Shows t outer hidden start stop (ps ++ qs) := by
  induction h with
  | done => exact h'
  | text hslice hnot _ ih => exact .text hslice hnot (ih h')
  | expansion houter he hslice hnot _ ih =>
    rw [List.append_assoc]
    exact .expansion houter he hslice hnot (ih h')
  | pass hle hhidden _ ih => exact .pass hle hhidden (ih h')
  | substitution _ ih => exact .substitution (ih h')

theorem mono (h : Shows t outer hidden start stop ps) (houter : ∀ n, outer n → outer' n)
    (hhidden : ∀ k, start ≤ k → k < stop → (hidden k ↔ hidden' k)) :
    Shows t outer' hidden' start stop ps := by
  induction h with
  | done => exact .done _
  | text hslice hnot hrest ih =>
    have hle := le_of_slice? hslice
    have hle' := hrest.le
    refine .text hslice (fun k hk hk' => ?_) (ih fun k hk hk' => hhidden k (by omega) hk')
    rw [← hhidden k hk (by omega)]
    exact hnot k hk hk'
  | expansion hn he hslice hnot hrest ih =>
    have hle := le_of_slice? hslice
    have hle' := hrest.le
    refine .expansion (houter _ hn) he hslice (fun k hk hk' => ?_)
      (ih fun k hk hk' => hhidden k (by omega) hk')
    rw [← hhidden k hk (by omega)]
    exact hnot k hk hk'
  | pass hle hpassed hrest ih =>
    have hle' := hrest.le
    refine .pass hle (fun k hk hk' => ?_) (ih fun k hk hk' => hhidden k (by omega) hk')
    rw [← hhidden k hk (by omega)]
    exact hpassed k hk hk'
  | substitution _ ih => exact .substitution (ih hhidden)

end Shows

namespace Covering

variable {x : Stretch} {xs : List Stretch}

theorem nil : Covering t outer hidden k k [] [] :=
  ⟨rfl, nofun, .nil, fun _ hk hk' => absurd hk' (Nat.not_lt.2 hk)⟩

theorem cons (hx : x.Sound t outer) (hshown : qs.filter (·.chars?.isSome) = x.pieces)
    (hnot : ∀ k, x.start ≤ k → k < x.stop → ¬hidden k) (hle : x.stop ≤ stop)
    (h : Covering t outer hidden x.stop stop ps xs) :
    Covering t outer hidden x.start stop (qs ++ ps) (x :: xs) := by
  obtain ⟨chars, hslice, -⟩ := hx.chars
  have hspan := le_of_slice? hslice
  refine ⟨?_, ?_, ?_, fun k hk hk' => ?_⟩
  · rw [List.filter_append, hshown, h.pieces, List.flatMap_cons]
  · refine List.forall_mem_cons.2 ⟨⟨Nat.le_refl _, hle, hx⟩, fun y hy => ?_⟩
    obtain ⟨hstart, hstop, hsound⟩ := h.sound y hy
    exact ⟨Nat.le_trans hspan hstart, hstop, hsound⟩
  · exact List.pairwise_cons.2 ⟨fun y hy => (h.sound y hy).1, h.ordered⟩
  · rcases Nat.lt_or_ge k x.stop with hlt | hge
    · exact iff_of_true ⟨x, List.mem_cons_self, hk, hlt⟩ (hnot k hk hlt)
    · rw [← h.bytes k hge hk']
      simp only [List.mem_cons, exists_eq_or_imp]
      exact or_iff_right fun hcovered => absurd hcovered.2 (Nat.not_lt.2 hge)

theorem pass (hle : start ≤ next) (hhidden : ∀ k, start ≤ k → k < next → hidden k)
    (h : Covering t outer hidden next stop ps xs) : Covering t outer hidden start stop ps xs := by
  refine ⟨h.pieces, fun y hy => ?_, h.ordered, fun k hk hk' => ?_⟩
  · obtain ⟨hstart, hstop, hsound⟩ := h.sound y hy
    exact ⟨Nat.le_trans hle hstart, hstop, hsound⟩
  · rcases Nat.lt_or_ge k next with hlt | hge
    · refine iff_of_false ?_ (not_not.2 (hhidden k hk hlt))
      rintro ⟨y, hy, hstart, -⟩
      have := (h.sound y hy).1
      omega
    · exact h.bytes k hge hk'

end Covering

theorem Shows.exists_covering (h : Shows t outer hidden start stop ps) :
    ∃ xs, Covering t outer hidden start stop ps xs := by
  induction h with
  | done => exact ⟨[], .nil⟩
  | @text start next stop chars quoted i ps hslice hnot hrest ih =>
    obtain ⟨xs, hxs⟩ := ih
    let x : Stretch := ⟨start, next, .text chars quoted i, []⟩
    have hx : x.Sound t outer := ⟨⟨chars, hslice, rfl⟩, .inl ⟨rfl, rfl⟩⟩
    have hshown : [x.piece].filter (·.chars?.isSome) = x.pieces := rfl
    exact ⟨x :: xs, hxs.cons hx hshown hnot hrest.le⟩
  | @expansion n stop quoted ps hn he hslice hnot hrest ih =>
    obtain ⟨xs, hxs⟩ := ih
    obtain ⟨nested, hpieces, hnested⟩ := Node.exists_nested he
    let x : Stretch := ⟨n.info.start, n.info.stop, variablePiece t quoted n.info n.children, nested⟩
    have hx : x.Sound t outer :=
      ⟨⟨t.chars n.info, hslice, rfl⟩, .inr ⟨n, quoted, hn, rfl, rfl, rfl, hnested⟩⟩
    have hshown : (n.nestedVariables t quoted).filter (·.chars?.isSome) = x.pieces := by
      rw [hpieces]
      refine List.filter_eq_self.2 (List.forall_mem_cons.2 ⟨rfl, fun y hy => ?_⟩)
      obtain ⟨m, -, -, quoted, rfl⟩ := hnested y hy
      rfl
    exact ⟨x :: xs, hxs.cons hx hshown hnot hrest.le⟩
  | pass hle hhidden _ ih =>
    obtain ⟨xs, hxs⟩ := ih
    exact ⟨xs, hxs.pass hle hhidden⟩
  | substitution _ ih =>
    obtain ⟨xs, hxs⟩ := ih
    exact ⟨xs, hxs.pieces, hxs.sound, hxs.ordered, hxs.bytes⟩

end EbuildAudit.Shell
