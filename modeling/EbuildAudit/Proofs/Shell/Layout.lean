import EbuildAudit.Proofs.Shell.Quoting

namespace EbuildAudit.Shell

open Text

/--
A quoted text has its quotes in the script. Every node in a string lies in one of the quotes or
between them, and in a translated string there are only a dollar sign and a string.
-/
structure Node.ProperQuotes (t : Tree) (n : Node) : Prop where
  opened : openingMark n.kind <+: t.chars n.info
  closed : closingMark n.kind <:+ (t.chars n.info).drop (openingMark n.kind).length
  between : n.kind = "string" → ∀ c ∈ n.children,
    c.info.stop ≤ n.info.innerStart ∨ n.info.innerStop ≤ c.info.start ∨
      n.info.innerStart ≤ c.info.start ∧ c.info.stop ≤ n.info.innerStop
  translated : n.kind = "translated_string" → ∀ c ∈ n.children,
    c.info.stop ≤ n.info.start + 1 ∨ c.kind = "string"

instance (t : Tree) (n : Node) : Decidable (n.ProperQuotes t) :=
  decidable_of_iff
    (openingMark n.kind <+: t.chars n.info ∧
      closingMark n.kind <:+ (t.chars n.info).drop (openingMark n.kind).length ∧
      (n.kind = "string" → ∀ c ∈ n.children,
        c.info.stop ≤ n.info.innerStart ∨ n.info.innerStop ≤ c.info.start ∨
          n.info.innerStart ≤ c.info.start ∧ c.info.stop ≤ n.info.innerStop) ∧
      (n.kind = "translated_string" → ∀ c ∈ n.children,
        c.info.stop ≤ n.info.start + 1 ∨ c.kind = "string"))
    ⟨fun ⟨h₁, h₂, h₃, h₄⟩ => ⟨h₁, h₂, h₃, h₄⟩, fun ⟨h₁, h₂, h₃, h₄⟩ => ⟨h₁, h₂, h₃, h₄⟩⟩

def isClosed (kind : String) : Bool :=
  isSingleQuoted kind || isExpansion kind || isSubstitution kind

namespace Node

def exposed (a : Node) : List Node :=
  ((a.placed []).filter fun place => place.1.all (!isClosed ·.kind)).map (·.2)

def Takes (n : Node) (k : Nat) : Prop :=
  isDoubleQuoted n.kind ∧ n.info.Delimits k ∨ isClosed n.kind ∧ n.info.Covers k

def Delimited (a : Node) (start stop : Nat) : Prop :=
  ∀ k, start ≤ k → k < stop → ∃ n ∈ a.exposed, isDoubleQuoted n.kind ∧ n.info.Delimits k

end Node

namespace NodeInfo

def bodyStart (i : NodeInfo) : Nat :=
  if isDoubleQuoted i.kind then i.innerStart else i.start

def bodyStop (i : NodeInfo) : Nat :=
  if isDoubleQuoted i.kind then i.innerStop else i.stop

end NodeInfo

/--
A part of a word with the pieces that stand for it: quotes, of which there is nothing left, text that
no node takes, or a node that the walk does not go into.
-/
inductive Block (t : Tree) (a : Node) : Nat → Nat → List Piece → Prop
  | quote {start stop : Nat} : start ≤ stop → a.Delimited start stop → Block t a start stop []
  | text {start stop : Nat} {cs : List Char} {quoted : Bool} {i : NodeInfo} :
      slice? t.source start stop = some cs →
      (start = stop → ∃ n ∈ a.exposed, n.children = [] ∧ n.info.start = n.info.stop) →
      (∀ k, start ≤ k → k < stop → ∀ n ∈ a.exposed, ¬n.Takes k) →
      Block t a start stop [.text cs quoted i]
  | closed {n : Node} {quoted : Bool} : n ∈ a.exposed → isClosed n.kind →
      n.info.start ≤ n.info.stop →
      (∀ k, n.info.Covers k → ∀ m ∈ a.exposed, m.Takes k → m = n) →
      Block t a n.info.start n.info.stop (n.pieces t quoted)

/-- Blocks from one byte to another, with nothing between them. -/
inductive Tiles (t : Tree) (a : Node) : Nat → Nat → List Piece → Prop
  | nil (k : Nat) : Tiles t a k k []
  | cons {start next stop : Nat} {ps qs : List Piece} :
      Block t a start next ps → Tiles t a next stop qs → Tiles t a start stop (ps ++ qs)

variable {t : Tree} {i : NodeInfo} {cs : List Node} {a c m n : Node} {quoted : Bool}
  {start next stop position k : Nat} {ps qs : List Piece}

/-! ## Marks -/

theorem inner_of_plain (hd : ¬isDoubleQuoted i.kind) (hs : ¬isSingleQuoted i.kind) :
    i.innerStart = i.start ∧ i.innerStop = i.stop := by
  have hkind := hd
  simp only [isDoubleQuoted, isSingleQuoted, Bool.or_eq_true, beq_iff_eq, not_or] at hkind hs
  simp [NodeInfo.innerStart, NodeInfo.innerStop, openingMark, closingMark, isSingleQuoted, hd, hkind,
    hs]

theorem not_delimits (hk : i.innerStart ≤ k) (hk' : k < i.innerStop) : ¬i.Delimits k := by
  rw [NodeInfo.Delimits]
  omega

theorem betweenQuotes_marks {kind : String} {inner : List Char} (h : isSingleQuoted kind) :
    betweenQuotes (openingMark kind ++ (inner ++ closingMark kind)) = inner := by
  have hkind : kind = "raw_string" ∨ kind = "ansi_c_string" := by simpa [isSingleQuoted] using h
  rcases hkind with rfl | rfl <;>
    simp [betweenQuotes, openingMark, closingMark, isDoubleQuoted, isSingleQuoted]

theorem body_of_not (h : ¬isDoubleQuoted i.kind) : i.bodyStart = i.start ∧ i.bodyStop = i.stop :=
  ⟨if_neg h, if_neg h⟩

theorem body_of_isDoubleQuoted (h : isDoubleQuoted i.kind) :
    i.bodyStart = i.innerStart ∧ i.bodyStop = i.innerStop :=
  ⟨if_pos h, if_pos h⟩

theorem not_isClosed {kind : String} :
    ¬isClosed kind ↔ ¬isSingleQuoted kind ∧ ¬isExpansion kind ∧ ¬isSubstitution kind := by
  rw [isClosed, Bool.or_eq_true, Bool.or_eq_true, or_assoc, not_or, not_or]

theorem not_isDoubleQuoted_of_isClosed {kind : String} (h : isClosed kind) :
    ¬isDoubleQuoted kind := by
  rw [isClosed, Bool.or_eq_true, Bool.or_eq_true] at h
  rw [Bool.not_eq_true]
  rcases h with (hs | he) | hb
  · exact (of_isSingleQuoted hs).1
  · exact (of_isExpansion he).1
  · exact (of_isSubstitution hb).1

namespace Node

theorem Orderly.slice?_eq (h : (node i cs).Orderly t.source) :
    slice? t.source i.start i.stop = some (t.chars i) := by
  obtain ⟨cs, hslice⟩ := exists_slice h.start h.stop h.start_le_stop
  rw [info_node] at hslice
  rw [Tree.chars, hslice, Option.getD_some]

theorem exists_inner (ho : (node i cs).Orderly t.source) (hq : (node i cs).ProperQuotes t) :
    ∃ inner, t.chars i = openingMark i.kind ++ (inner ++ closingMark i.kind) ∧
      slice? t.source i.innerStart i.innerStop = some inner ∧
      i.start + byteLength (openingMark i.kind) + byteLength inner +
        byteLength (closingMark i.kind) = i.stop := by
  obtain ⟨rest, hrest⟩ := hq.opened
  obtain ⟨inner, hinner⟩ := hq.closed
  rw [← hrest, List.drop_left] at hinner
  rw [← hinner] at hrest
  exact ⟨inner, hrest.symm, slice?_between (ho.slice?_eq.trans (congrArg some hrest.symm))⟩

theorem exists_text (hs : isSingleQuoted n.kind) (ho : n.Orderly t.source) (hq : n.ProperQuotes t) :
    ∃ inner, n.pieces t quoted = [.text inner true n.info] ∧
      slice? t.source n.info.innerStart n.info.innerStop = some inner := by
  obtain ⟨i, cs⟩ := n
  rw [kind_node] at hs
  obtain ⟨inner, hchars, hslice, -⟩ := exists_inner ho hq
  refine ⟨inner, ?_, hslice⟩
  rw [pieces_of_isSingleQuoted hs, hchars, betweenQuotes_marks hs, info_node]

theorem inner_le (ho : (node i cs).Orderly t.source) (hq : (node i cs).ProperQuotes t) :
    i.start ≤ i.innerStart ∧ i.innerStart ≤ i.innerStop ∧ i.innerStop ≤ i.stop := by
  obtain ⟨inner, -, -, hlength⟩ := exists_inner ho hq
  rw [NodeInfo.innerStart, NodeInfo.innerStop]
  omega

theorem lt_start_of_string (ho : (node i cs).Orderly t.source) (hq : (node i cs).ProperQuotes t)
    (hkind : i.kind = "translated_string") (hc : c ∈ cs) (hoc : c.Orderly t.source)
    (hqc : c.ProperQuotes t) (hstring : c.kind = "string") : i.start < c.info.start := by
  obtain ⟨j, ds⟩ := c
  obtain ⟨inner, hchars, -⟩ := exists_inner ho hq
  obtain ⟨inner', hchars', -⟩ := exists_inner hoc hqc
  have hslice := ho.slice?_eq
  have hslice' := hoc.slice?_eq
  rw [kind_node] at hstring
  rw [hchars, hkind] at hslice
  rw [hchars', hstring] at hslice'
  refine Nat.lt_of_le_of_ne (ho.inside _ hc).1 fun heq => ?_
  rw [info_node] at heq
  rw [heq] at hslice
  exact absurd (head_eq_of_slice? hslice hslice') (by decide)

theorem Orderly.body_le (ho : n.Orderly t.source) (hq : n.ProperQuotes t) :
    n.info.start ≤ n.info.bodyStart ∧ n.info.bodyStart ≤ n.info.bodyStop ∧
      n.info.bodyStop ≤ n.info.stop := by
  by_cases hd : isDoubleQuoted n.info.kind
  · rw [(body_of_isDoubleQuoted hd).1, (body_of_isDoubleQuoted hd).2]
    cases n
    exact inner_le ho hq
  · rw [(body_of_not hd).1, (body_of_not hd).2]
    exact ⟨Nat.le_refl _, ho.start_le_stop, Nat.le_refl _⟩

/-! ## What the walk comes to -/

theorem mem_exposed : m ∈ a.exposed ↔
    ∃ above, (above, m) ∈ a.placed [] ∧ ∀ i ∈ above, ¬isClosed i.kind := by
  simp [exposed]

theorem mem_exposed_node :
    m ∈ (node i cs).exposed ↔ m = node i cs ∨ ¬isClosed i.kind ∧ ∃ c ∈ cs, m ∈ c.exposed := by
  simp only [mem_exposed, mem_placed_node]
  constructor
  · rintro ⟨above, ⟨rfl, rfl⟩ | ⟨c, hc, inner, hplaced, rfl⟩, habove⟩
    · exact .inl rfl
    · rw [List.forall_mem_append, List.forall_mem_singleton] at habove
      exact .inr ⟨habove.2, c, hc, inner, hplaced, habove.1⟩
  · rintro (rfl | ⟨hi, c, hc, inner, hplaced, habove⟩)
    · exact ⟨[], .inl ⟨rfl, rfl⟩, nofun⟩
    · exact ⟨inner ++ [i], .inr ⟨c, hc, inner, hplaced, rfl⟩,
        List.forall_mem_append.2 ⟨habove, List.forall_mem_singleton.2 hi⟩⟩

theorem mem_exposed_self (n : Node) : n ∈ n.exposed := by
  cases n
  exact mem_exposed_node.2 (.inl rfl)

theorem mem_preorder_of_exposed (h : m ∈ a.exposed) : m ∈ a.preorder := by
  obtain ⟨above, hplaced, -⟩ := mem_exposed.1 h
  exact mem_preorder_of_placed hplaced

theorem delimited_opening (hc : c ∈ a.exposed) : a.Delimited c.info.start c.info.bodyStart := by
  intro k hk hk'
  rw [NodeInfo.bodyStart] at hk'
  split at hk'
  case isTrue hd => exact ⟨c, hc, hd, .inl ⟨hk, hk'⟩⟩
  case isFalse => omega

theorem delimited_closing (hc : c ∈ a.exposed) : a.Delimited c.info.bodyStop c.info.stop := by
  intro k hk hk'
  rw [NodeInfo.bodyStop] at hk
  split at hk
  case isTrue hd => exact ⟨c, hc, hd, .inr ⟨hk, hk'⟩⟩
  case isFalse => omega

theorem Delimited.mono (h : a.Delimited start stop) (hstart : start ≤ position)
    (hstop : next ≤ stop) : a.Delimited position next :=
  fun k hk hk' => h k (Nat.le_trans hstart hk) (Nat.lt_of_lt_of_le hk' hstop)

theorem Takes.covers (ho : n.Orderly t.source) (hq : n.ProperQuotes t) (h : n.Takes k) :
    n.info.Covers k := by
  rcases h with ⟨-, hmark⟩ | ⟨-, hcovers⟩
  · obtain ⟨i, cs⟩ := n
    have hinner := inner_le ho hq
    rw [NodeInfo.Delimits, info_node] at hmark
    rw [NodeInfo.Covers, info_node]
    omega
  · exact hcovers

theorem takes_of_delimits (ho : n.Orderly t.source) (hq : n.ProperQuotes t)
    (hk : n.info.Delimits k) : n.Takes k := by
  by_cases hd : isDoubleQuoted n.kind
  · exact .inl ⟨hd, hk⟩
  · by_cases hs : isSingleQuoted n.kind
    · obtain ⟨i, cs⟩ := n
      have hinner := inner_le ho hq
      rw [NodeInfo.Delimits, info_node] at hk
      refine .inr ⟨by rw [isClosed, hs, Bool.true_or, Bool.true_or], ?_⟩
      rw [NodeInfo.Covers, info_node]
      omega
    · obtain ⟨hstart, hstop⟩ := inner_of_plain hd hs
      rw [NodeInfo.Delimits] at hk
      omega

theorem Takes.within (h : ∀ m ∈ a.preorder, m.Orderly t.source ∧ m.ProperQuotes t)
    (hn : n ∈ a.exposed) (hk : n.Takes k) : a.info.Covers k := by
  have hmem := mem_preorder_of_exposed hn
  obtain ⟨hstart, hstop⟩ := Orderly.within (fun m hm => (h m hm).1) hmem
  obtain ⟨hk, hk'⟩ := hk.covers (h n hmem).1 (h n hmem).2
  exact ⟨Nat.le_trans hstart hk, Nat.lt_of_lt_of_le hk' hstop⟩

end Node

/-! ## Blocks one after another -/

theorem Block.le (h : Block t a start stop ps) : start ≤ stop := by
  cases h with
  | quote hle => exact hle
  | text hslice => exact le_of_slice? hslice
  | closed _ _ hle => exact hle

theorem Block.mono (h : Block t c start stop ps) (hexposed : ∀ n ∈ c.exposed, n ∈ a.exposed)
    (htaken : ∀ k, start ≤ k → k < stop → ∀ n ∈ a.exposed, n.Takes k → n ∈ c.exposed) :
    Block t a start stop ps := by
  cases h with
  | quote hle hquotes =>
    refine .quote hle fun k hk hk' => ?_
    obtain ⟨n, hn, hmark⟩ := hquotes k hk hk'
    exact ⟨n, hexposed n hn, hmark⟩
  | text hslice hempty hfree =>
    refine .text hslice (fun heq => ?_) fun k hk hk' n hn htakes =>
      hfree k hk hk' n (htaken k hk hk' n hn htakes) htakes
    obtain ⟨n, hn, hleaf⟩ := hempty heq
    exact ⟨n, hexposed n hn, hleaf⟩
  | closed hn hclosed hle hown =>
    exact .closed (hexposed _ hn) hclosed hle fun k hk m hm htakes =>
      hown k hk m (htaken k hk.1 hk.2 m hm htakes) htakes

namespace Tiles

theorem of_block (h : Block t a start stop ps) : Tiles t a start stop ps := by
  rw [← List.append_nil ps]
  exact .cons h (.nil _)

theorem le (h : Tiles t a start stop ps) : start ≤ stop := by
  induction h with
  | nil => exact Nat.le_refl _
  | cons hblock _ ih => exact Nat.le_trans hblock.le ih

theorem append (h : Tiles t a start next ps) (h' : Tiles t a next stop qs) :
    Tiles t a start stop (ps ++ qs) := by
  induction h with
  | nil => exact h'
  | cons hblock _ ih =>
    rw [List.append_assoc]
    exact .cons hblock (ih h')

theorem mono (h : Tiles t c start stop ps) (hexposed : ∀ n ∈ c.exposed, n ∈ a.exposed)
    (htaken : ∀ k, start ≤ k → k < stop → ∀ n ∈ a.exposed, n.Takes k → n ∈ c.exposed) :
    Tiles t a start stop ps := by
  induction h with
  | nil => exact .nil _
  | cons hblock hrest ih =>
    have hle := hblock.le
    have hle' := hrest.le
    exact .cons (hblock.mono hexposed fun k hk hk' => htaken k hk (by omega))
      (ih fun k hk hk' => htaken k (by omega) hk')

theorem quote (hle : start ≤ next) (hquotes : a.Delimited start next)
    (h : Tiles t a next stop ps) : Tiles t a start stop ps :=
  .cons (.quote hle hquotes) h

theorem exists_block (h : Tiles t a start stop ps) (hk : start ≤ k) (hk' : k < stop) :
    ∃ from' to' before shown after, ps = before ++ (shown ++ after) ∧
      Block t a from' to' shown ∧ from' ≤ k ∧ k < to' ∧ Tiles t a to' stop after := by
  induction h with
  | nil => omega
  | @cons start next stop ps qs hblock hrest ih =>
    rcases Nat.lt_or_ge k next with hlt | hge
    · exact ⟨start, next, [], ps, qs, rfl, hblock, hk, hlt, hrest⟩
    · obtain ⟨from', to', before, shown, after, rfl, hfound⟩ := ih hge hk'
      exact ⟨from', to', ps ++ before, shown, after, by rw [List.append_assoc], hfound⟩

end Tiles

/-! ## Children and the text around them -/

theorem tiles_gap (hstart : IsBoundary t.source start) (hstop : IsBoundary t.source stop)
    (hfree : ∀ k, start ≤ k → k < stop → ∀ n ∈ a.exposed, ¬n.Takes k) :
    Tiles t a (min start stop) stop (gap t quoted i start stop) := by
  rw [gap]
  split
  case isTrue hlt =>
    obtain ⟨cs, hslice⟩ := exists_slice hstart hstop (Nat.le_of_lt hlt)
    rw [hslice, Nat.min_eq_left (Nat.le_of_lt hlt)]
    exact .of_block (.text hslice (fun heq => absurd hlt (heq ▸ Nat.lt_irrefl _)) hfree)
  case isFalse hge =>
    rw [Nat.min_eq_right (Nat.not_lt.1 hge)]
    exact .nil _

theorem tiles_gap_quote (hposition : IsBoundary t.source position)
    (hstart : IsBoundary t.source start) (hle : position ≤ next ∧ start ≤ next)
    (hfree : ∀ k, position ≤ k → k < start → ∀ n ∈ a.exposed, ¬n.Takes k)
    (hquotes : a.Delimited start next) :
    Tiles t a position next (gap t quoted i position start) := by
  rcases Nat.le_total position start with hbefore | hbehind
  · have hgap : Tiles t a (min position start) start (gap t quoted i position start) :=
      tiles_gap hposition hstart hfree
    rw [Nat.min_eq_left hbefore] at hgap
    rw [← List.append_nil (gap ..)]
    exact hgap.append (.quote hle.2 hquotes (.nil _))
  · rw [gap, if_neg (Nat.not_lt.2 hbehind)]
    exact .quote hle.1 (hquotes.mono hbehind (Nat.le_refl _)) (.nil _)

theorem tiles_child (hposition : IsBoundary t.source position)
    (hplace : position ≤ c.info.bodyStart ∧ c.info.bodyStop ≤ stop)
    (hshown : c.info.start < stop) (h : ∀ m ∈ c.preorder, m.Orderly t.source ∧ m.ProperQuotes t)
    (hpieces : Tiles t c c.info.bodyStart c.info.bodyStop (c.pieces t quoted))
    (hexposed : ∀ n ∈ c.exposed, n ∈ a.exposed)
    (htaken : ∀ k, position ≤ k → k < min c.info.stop stop →
      ∀ n ∈ a.exposed, n.Takes k → n ∈ c.exposed) :
    Tiles t a position (min c.info.stop stop)
      (gap t quoted i position c.info.start ++ c.pieces t quoted) := by
  obtain ⟨ho, hq⟩ := h c c.mem_preorder_self
  have hbody := ho.body_le hq
  have hself := hexposed c c.mem_exposed_self
  have hbefore : Tiles t a position c.info.bodyStart (gap t quoted i position c.info.start) := by
    refine tiles_gap_quote hposition ho.start ⟨hplace.1, hbody.1⟩ (fun k hk hk' n hn htakes => ?_)
      (Node.delimited_opening hself)
    have hnc : n ∈ c.exposed := htaken k hk (by omega) n hn htakes
    exact absurd (htakes.within h hnc).1 (Nat.not_le.2 hk')
  have hchild : Tiles t a c.info.bodyStart c.info.bodyStop (c.pieces t quoted) :=
    hpieces.mono hexposed fun k hk hk' => htaken k (by omega) (by omega)
  have hclosing : a.Delimited c.info.bodyStop (min c.info.stop stop) :=
    (Node.delimited_closing hself).mono (Nat.le_refl _) (Nat.min_le_left ..)
  rw [← List.append_nil (gap .. ++ _)]
  exact (hbefore.append hchild).append (.quote (by omega) hclosing (.nil _))

/--
The children that reach into the part are laid out, and so is all the text that is around them. Only
with its quotes may a child reach out of the part.
-/
theorem tiles_piecesBetween (hposition : IsBoundary t.source position)
    (hstop : IsBoundary t.source stop) (hle : start ≤ position)
    (hplaces : ∀ c ∈ cs, c.info.stop ≤ start ∨ stop ≤ c.info.start ∨
      position ≤ c.info.bodyStart ∧ c.info.bodyStop ≤ stop)
    (hordered : cs.Pairwise fun c d => c.info.stop ≤ d.info.start)
    (h : ∀ c ∈ cs, ∀ m ∈ c.preorder, m.Orderly t.source ∧ m.ProperQuotes t)
    (hpieces : ∀ c ∈ cs, Tiles t c c.info.bodyStart c.info.bodyStop (c.pieces t quoted))
    (hexposed : ∀ c ∈ cs, ∀ n ∈ c.exposed, n ∈ a.exposed)
    (htaken : ∀ k, position ≤ k → k < stop → ∀ n ∈ a.exposed, n.Takes k → ∃ c ∈ cs, n ∈ c.exposed) :
    Tiles t a (min position stop) stop (piecesBetween t quoted i start stop position cs) := by
  induction cs generalizing position with
  | nil =>
    rw [piecesBetween]
    refine tiles_gap hposition hstop fun k hk hk' n hn htakes => ?_
    obtain ⟨c, hc, -⟩ := htaken k hk hk' n hn htakes
    cases hc
  | cons c cs ih =>
    rw [List.forall_mem_cons] at hplaces h hpieces hexposed
    obtain ⟨hafter, hordered⟩ := List.pairwise_cons.1 hordered
    simp only [List.mem_cons, exists_eq_or_imp] at htaken
    -- Which child takes a byte is told by where the byte is.
    have hcovers {k : Nat} {n : Node} (hn : n ∈ c.exposed) (hk : n.Takes k) : c.info.Covers k :=
      hk.within h.1 hn
    have hbehind {k : Nat} {n : Node} (hk : k < c.info.stop) (htakes : n.Takes k) :
        ¬∃ d ∈ cs, n ∈ d.exposed := by
      rintro ⟨d, hd, hn⟩
      have := htakes.within (h.2 d hd) hn
      have := hafter d hd
      rw [NodeInfo.Covers] at *
      omega
    rw [piecesBetween]
    split
    case isTrue hskipped =>
      have hout : c.info.stop ≤ start ∨ stop ≤ c.info.start := by simpa using hskipped
      refine ih hposition hle hplaces.2 hordered h.2 hpieces.2 hexposed.2 fun k hk hk' n hn htakes =>
        (htaken k hk hk' n hn htakes).resolve_left fun hc => ?_
      have := hcovers hc htakes
      rw [NodeInfo.Covers] at this
      omega
    case isFalse hshown =>
      have hin : start < c.info.stop ∧ c.info.start < stop := by simpa using hshown
      have hplace : position ≤ c.info.bodyStart ∧ c.info.bodyStop ≤ stop := by omega
      obtain ⟨ho, hq⟩ := h.1 c c.mem_preorder_self
      have hbody := ho.body_le hq
      have hchild : Tiles t a position (min c.info.stop stop)
          (gap t quoted i position c.info.start ++ c.pieces t quoted) :=
        tiles_child hposition hplace hin.2 h.1 hpieces.1 hexposed.1 fun k hk hk' n hn htakes =>
          (htaken k hk (by omega) n hn htakes).resolve_right (hbehind (by omega) htakes)
      have hplaces' : ∀ d ∈ cs, d.info.stop ≤ start ∨ stop ≤ d.info.start ∨
          c.info.stop ≤ d.info.bodyStart ∧ d.info.bodyStop ≤ stop := fun d hd => by
        have := hplaces.2 d hd
        have := hafter d hd
        obtain ⟨ho', hq'⟩ := h.2 d hd d d.mem_preorder_self
        have := ho'.body_le hq'
        omega
      have hrest : Tiles t a (min c.info.stop stop) stop
          (piecesBetween t quoted i start stop c.info.stop cs) := by
        refine ih ho.stop (Nat.le_of_lt hin.1) hplaces' hordered h.2 hpieces.2 hexposed.2
          fun k hk hk' n hn htakes =>
            (htaken k (by omega) hk' n hn htakes).resolve_left fun hc => ?_
        exact absurd (hcovers hc htakes).2 (Nat.not_lt.2 hk)
      rw [Nat.min_eq_left (by omega)]
      exact hchild.append hrest

/-! ## The nodes that the walk goes into -/

namespace Node

section

variable (h : ∀ m ∈ (node i cs).preorder, m.Orderly t.source ∧ m.ProperQuotes t)
  (hi : ¬isClosed i.kind)
include h hi

theorem tiles_open
    (hplaces : ∀ c ∈ cs, c.info.stop ≤ i.bodyStart ∨ i.bodyStop ≤ c.info.start ∨
      i.bodyStart ≤ c.info.bodyStart ∧ c.info.bodyStop ≤ i.bodyStop)
    (hbody : IsBoundary t.source i.bodyStart ∧ IsBoundary t.source i.bodyStop)
    (hpieces : ∀ c ∈ cs, Tiles t c c.info.bodyStart c.info.bodyStop (c.pieces t quoted)) :
    Tiles t (node i cs) i.bodyStart i.bodyStop
      (piecesBetween t quoted i i.bodyStart i.bodyStop i.bodyStart cs) := by
  obtain ⟨⟨ho, hq⟩, hbelow⟩ := forall_mem_preorder_node.1 h
  have hle : i.bodyStart ≤ i.bodyStop := (ho.body_le hq).2.1
  have hexposed : ∀ c ∈ cs, ∀ n ∈ c.exposed, n ∈ (node i cs).exposed :=
    fun c hc n hn => mem_exposed_node.2 (.inr ⟨hi, c, hc, hn⟩)
  have htaken (k : Nat) (hk : i.bodyStart ≤ k) (hk' : k < i.bodyStop) (n : Node)
      (hn : n ∈ (node i cs).exposed) (htakes : n.Takes k) : ∃ c ∈ cs, n ∈ c.exposed := by
    rcases mem_exposed_node.1 hn with rfl | ⟨-, hbelow⟩
    · rcases htakes with ⟨hd, hmark⟩ | ⟨hclosed, -⟩
      · rw [kind_node] at hd
        rw [(body_of_isDoubleQuoted hd).1] at hk
        rw [(body_of_isDoubleQuoted hd).2] at hk'
        exact absurd hmark (not_delimits hk hk')
      · exact absurd hclosed hi
    · exact hbelow
  have htiles : Tiles t (node i cs) (min i.bodyStart i.bodyStop) i.bodyStop
      (piecesBetween t quoted i i.bodyStart i.bodyStop i.bodyStart cs) :=
    tiles_piecesBetween hbody.1 hbody.2 (Nat.le_refl _) hplaces ho.ordered hbelow hpieces hexposed
      htaken
  rwa [Nat.min_eq_left hle] at htiles

theorem tiles_plain (hd : ¬isDoubleQuoted i.kind)
    (hpieces : ∀ c ∈ cs, Tiles t c c.info.bodyStart c.info.bodyStop (c.pieces t quoted)) :
    Tiles t (node i cs) i.bodyStart i.bodyStop ((node i cs).pieces t quoted) := by
  obtain ⟨⟨ho, -⟩, hbelow⟩ := forall_mem_preorder_node.1 h
  obtain ⟨hstart, hstop⟩ := body_of_not hd
  obtain ⟨hs, he, hb⟩ := not_isClosed.1 hi
  rw [pieces_of_plain hd hs he hb]
  split
  case isTrue hempty =>
    obtain rfl := List.isEmpty_iff.1 hempty
    rw [hstart, hstop]
    refine .of_block (.text ho.slice?_eq (fun heq => ⟨_, mem_exposed_self _, rfl, heq⟩)
      fun k _ _ n hn htakes => ?_)
    rcases mem_exposed_node.1 hn with rfl | ⟨-, c, hc, -⟩
    · exact htakes.elim (fun htakes => hd htakes.1) fun htakes => hi htakes.1
    · cases hc
  case isFalse =>
    have hboundary : IsBoundary t.source i.bodyStart ∧ IsBoundary t.source i.bodyStop := by
      rw [hstart, hstop]
      exact ⟨ho.start, ho.stop⟩
    have htiles := tiles_open h hi (fun c hc => .inr (.inr ?_)) hboundary hpieces
    · rwa [hstart, hstop] at htiles ⊢
    · obtain ⟨hoc, hqc⟩ := hbelow c hc c c.mem_preorder_self
      have hinside := ho.inside c hc
      have hbody := hoc.body_le hqc
      rw [info_node] at hinside
      rw [hstart, hstop]
      exact ⟨Nat.le_trans hinside.1 hbody.1, Nat.le_trans hbody.2.2 hinside.2⟩

theorem tiles_doubleQuoted (hd : isDoubleQuoted i.kind)
    (hpieces : ∀ c ∈ cs, Tiles t c c.info.bodyStart c.info.bodyStop (c.pieces t true)) :
    Tiles t (node i cs) i.bodyStart i.bodyStop ((node i cs).pieces t quoted) := by
  obtain ⟨⟨ho, hq⟩, hbelow⟩ := forall_mem_preorder_node.1 h
  obtain ⟨-, hle, hle'⟩ := inner_le ho hq
  obtain ⟨inner, -, hslice, -⟩ := exists_inner ho hq
  obtain ⟨hopening, hclosing⟩ := inner_of_isDoubleQuoted hd
  obtain ⟨hstart, hstop⟩ := body_of_isDoubleQuoted hd
  rw [pieces_of_isDoubleQuoted hd, ← hopening, ← hclosing, Nat.min_eq_left (Nat.le_trans hle hle'),
    Nat.max_eq_left hle, ← hstart, ← hstop]
  refine tiles_open h hi (fun c hc => ?_) (by rw [hstart, hstop]; exact isBoundary_of_slice? hslice)
    hpieces
  obtain ⟨hoc, hqc⟩ := hbelow c hc c c.mem_preorder_self
  have hbody := hoc.body_le hqc
  have hkind : i.kind = "string" ∨ i.kind = "translated_string" := by simpa [isDoubleQuoted] using hd
  rw [hstart, hstop]
  rcases hkind with hkind | hkind
  · refine (hq.between hkind c hc).imp_right (.imp_right fun hbetween => ?_)
    exact ⟨Nat.le_trans hbetween.1 hbody.1, Nat.le_trans hbody.2.2 hbetween.2⟩
  · have htwo : i.innerStart = i.start + 2 := by rw [hopening, hkind]; rfl
    refine (hq.translated hkind c hc).imp (fun hdollar => ?_) fun hstring => .inr ?_
    · rw [info_node] at hdollar
      omega
    · have hlt := lt_start_of_string ho hq hkind hc hoc hqc hstring
      have hd' : isDoubleQuoted c.info.kind := by rw [← kind, hstring]; rfl
      obtain ⟨hopening', hclosing'⟩ := inner_of_isDoubleQuoted hd'
      have hone : openingLength c.info.kind = 1 := by rw [← kind, hstring]; rfl
      have hinside := (ho.inside c hc).2
      rw [info_node] at hinside
      rw [(body_of_isDoubleQuoted hd').1, (body_of_isDoubleQuoted hd').2]
      omega

end

theorem tiles_pieces (h : ∀ m ∈ n.preorder, m.Orderly t.source ∧ m.ProperQuotes t) :
    Tiles t n n.info.bodyStart n.info.bodyStop (n.pieces t quoted) := by
  induction n generalizing quoted with
  | node i cs ih =>
    obtain ⟨⟨ho, -⟩, hbelow⟩ := forall_mem_preorder_node.1 h
    by_cases hi : isClosed i.kind
    · obtain ⟨hstart, hstop⟩ := body_of_not (not_isDoubleQuoted_of_isClosed hi)
      rw [info_node, hstart, hstop]
      refine .of_block (.closed (mem_exposed_self _) hi ho.start_le_stop fun k _ m hm _ => ?_)
      exact (mem_exposed_node.1 hm).resolve_right fun hbelow => hbelow.1 hi
    · by_cases hd : isDoubleQuoted i.kind
      · exact tiles_doubleQuoted h hi hd fun c hc => ih c hc (hbelow c hc)
      · exact tiles_plain h hi hd fun c hc => ih c hc (hbelow c hc)

end Node

theorem tiles_flatten (h : ∀ m ∈ a.preorder, m.Orderly t.source ∧ m.ProperQuotes t) :
    Tiles t a a.info.start a.info.stop (flatten t a) := by
  obtain ⟨ho, hq⟩ := h a a.mem_preorder_self
  have hbody := ho.body_le hq
  have hself := a.mem_exposed_self
  have hpieces : Tiles t a a.info.bodyStart a.info.bodyStop (flatten t a) := Node.tiles_pieces h
  rw [← List.append_nil (flatten t a)]
  exact .quote hbody.1 (Node.delimited_opening hself)
    (hpieces.append (.quote hbody.2.2 (Node.delimited_closing hself) (.nil _)))

end EbuildAudit.Shell
