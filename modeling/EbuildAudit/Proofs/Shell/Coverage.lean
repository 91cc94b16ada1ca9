import EbuildAudit.Proofs.Shell.Layout
import EbuildAudit.Proofs.Shell.Stretch

/-!
What the pieces of a word show of it: everything but quotes and substitutions, and everything once.
-/

namespace EbuildAudit.Shell

open Text

/--
The byte belongs to a quote or to a substitution in the word; in expansions and in single-quoted
texts there are none.
-/
def Node.Hides (a : Node) (k : Nat) : Prop :=
  ∃ above n, (above, n) ∈ a.placed [] ∧
    (∀ i ∈ above, ¬isExpansion i.kind ∧ ¬isSingleQuoted i.kind) ∧
    (n.info.Delimits k ∨ isSubstitution n.kind ∧ n.info.Covers k)

def Node.Outermost (a n : Node) : Prop :=
  isExpansion n.kind ∧ ∃ above, (above, n) ∈ a.placed [] ∧ ∀ i ∈ above, ¬isExpansion i.kind

variable {t : Tree} {i : NodeInfo} {cs : List Node} {a m n : Node} {quoted : Bool}
  {start stop k : Nat} {ps : List Piece} {outer : Node → Prop}

namespace Node

theorem hides_node : (node i cs).Hides k ↔ (i.Delimits k ∨ isSubstitution i.kind ∧ i.Covers k) ∨
    (¬isExpansion i.kind ∧ ¬isSingleQuoted i.kind) ∧ ∃ c ∈ cs, c.Hides k := by
  simp only [Hides, mem_placed_node]
  constructor
  · rintro ⟨above, m, ⟨rfl, rfl⟩ | ⟨c, hc, inner, hplaced, rfl⟩, habove, hk⟩
    · exact .inl hk
    · rw [List.forall_mem_append, List.forall_mem_singleton] at habove
      exact .inr ⟨habove.2, c, hc, inner, m, hplaced, habove.1, hk⟩
  · rintro (hk | ⟨hi, c, hc, inner, m, hplaced, habove, hk⟩)
    · exact ⟨[], node i cs, .inl ⟨rfl, rfl⟩, nofun, hk⟩
    · exact ⟨inner ++ [i], m, .inr ⟨c, hc, inner, hplaced, rfl⟩,
        List.forall_mem_append.2 ⟨habove, List.forall_mem_singleton.2 hi⟩, hk⟩

theorem Hides.of_delimits (h : n.info.Delimits k) : n.Hides k := by
  cases n
  exact hides_node.2 (.inl (.inl h))

theorem Hides.covers (h : ∀ m ∈ n.preorder, m.Orderly t.source ∧ m.ProperQuotes t)
    (hk : n.Hides k) : n.info.start ≤ k ∧ k < n.info.stop := by
  obtain ⟨above, ⟨i, cs⟩, hplaced, -, hk⟩ := hk
  have hm := mem_preorder_of_placed hplaced
  obtain ⟨hstart, hstop⟩ := Orderly.within (fun m hm => (h m hm).1) hm
  have hinner := inner_le (h _ hm).1 (h _ hm).2
  simp only [NodeInfo.Delimits, NodeInfo.Covers, info_node] at hk hstart hstop
  omega

theorem exists_taken_of_hides (h : ∀ m ∈ a.preorder, m.Orderly t.source ∧ m.ProperQuotes t)
    (hk : a.Hides k) : ∃ m ∈ a.exposed, m.Takes k ∧ m.Hides k := by
  induction a with
  | node i cs ih =>
    obtain ⟨⟨ho, hq⟩, hbelow⟩ := forall_mem_preorder_node.1 h
    have hself (htakes : (node i cs).Takes k) :
        ∃ m ∈ (node i cs).exposed, m.Takes k ∧ m.Hides k :=
      ⟨_, mem_exposed_self _, htakes, hk⟩
    by_cases hi : isClosed i.kind
    · exact hself (.inr ⟨hi, hk.covers h⟩)
    · rcases hides_node.1 hk with (hmark | ⟨hb, -⟩) | ⟨-, c, hc, hck⟩
      · exact hself (takes_of_delimits ho hq hmark)
      · exact absurd hb (not_isClosed.1 hi).2.2
      · obtain ⟨m, hm, hfound⟩ := ih c hc (hbelow c hc) hck
        exact ⟨m, mem_exposed_node.2 (.inr ⟨hi, c, hc, hm⟩), hfound⟩

theorem Hides.of_exposed (hm : m ∈ a.exposed) (hk : m.Hides k) : a.Hides k := by
  induction a with
  | node i cs ih =>
    rcases mem_exposed_node.1 hm with rfl | ⟨hi, c, hc, hm⟩
    · exact hk
    · exact hides_node.2 (.inr ⟨⟨(not_isClosed.1 hi).2.1, (not_isClosed.1 hi).1⟩, c, hc, ih c hc hm⟩)

theorem outermost_of_exposed (hm : m ∈ a.exposed) (he : isExpansion m.kind) : a.Outermost m := by
  obtain ⟨above, hplaced, habove⟩ := mem_exposed.1 hm
  exact ⟨he, above, hplaced, fun j hj => (not_isClosed.1 (habove j hj)).2.1⟩

end Node

namespace Node

theorem shows_expansion (he : isExpansion i.kind) (houter : outer (node i cs))
    (ho : (node i cs).Orderly t.source) :
    Shows t outer (node i cs).Hides i.start i.stop ((node i cs).pieces t quoted) := by
  obtain ⟨hd, hs, hb⟩ := of_isExpansion he
  obtain ⟨hstart, hstop⟩ := inner_of_plain (Bool.eq_false_iff.1 hd) (Bool.eq_false_iff.1 hs)
  rw [pieces_of_isExpansion he, ← List.append_nil (nestedVariables ..)]
  refine .expansion houter he ho.slice?_eq (fun k hk hk' => ?_) (.done _)
  have hmarks : ¬i.Delimits k := not_delimits (hstart ▸ hk) (hstop ▸ hk')
  simp [hides_node, hmarks, hb, he]

theorem shows_substitution (hb : isSubstitution i.kind) (ho : (node i cs).Orderly t.source) :
    Shows t outer (node i cs).Hides i.start i.stop ((node i cs).pieces t quoted) := by
  rw [pieces_of_isSubstitution hb]
  exact .substitution (.pass ho.start_le_stop
    (fun k hk hk' => hides_node.2 (.inl (.inr ⟨hb, hk, hk'⟩))) (.done _))

theorem shows_singleQuoted (hs : isSingleQuoted i.kind) (ho : (node i cs).Orderly t.source)
    (hq : (node i cs).ProperQuotes t) :
    Shows t outer (node i cs).Hides i.innerStart i.innerStop ((node i cs).pieces t quoted) := by
  obtain ⟨-, -, hb⟩ := of_isSingleQuoted hs
  obtain ⟨inner, hpieces, hslice⟩ := exists_text (n := node i cs) hs ho hq
  rw [hpieces]
  refine .text hslice (fun k hk hk' => ?_) (.done _)
  simp [hides_node, not_delimits hk hk', hb, hs]

theorem shows_marks
    (h : Shows t outer n.Hides n.info.innerStart n.info.innerStop ps) :
    Shows t outer n.Hides n.info.start n.info.stop ps := by
  have hinner : n.info.innerStop ≤ n.info.stop := Nat.sub_le ..
  have hclosing : Shows t outer n.Hides n.info.innerStop n.info.stop [] :=
    .pass hinner (fun k hk hk' => .of_delimits (.inr ⟨hk, hk'⟩)) (.done _)
  rw [← List.append_nil ps]
  exact .pass (Nat.le_add_right ..) (fun k hk hk' => .of_delimits (.inl ⟨hk, hk'⟩))
    (h.append hclosing)

theorem shows_closed (hi : isClosed n.kind) (houter : isExpansion n.kind → outer n)
    (ho : n.Orderly t.source) (hq : n.ProperQuotes t) :
    Shows t outer n.Hides n.info.start n.info.stop (n.pieces t quoted) := by
  obtain ⟨i, cs⟩ := n
  have hkind : (isSingleQuoted i.kind ∨ isExpansion i.kind) ∨ isSubstitution i.kind := by
    simpa [isClosed] using hi
  rcases hkind with (hs | he) | hb
  · exact shows_marks (shows_singleQuoted hs ho hq)
  · exact shows_expansion he (houter he) ho
  · exact shows_substitution hb ho

end Node

theorem Block.shows (h : ∀ m ∈ a.preorder, m.Orderly t.source ∧ m.ProperQuotes t)
    (hblock : Block t a start stop ps) : Shows t a.Outermost a.Hides start stop ps := by
  cases hblock with
  | quote hle hquotes =>
    refine .pass hle (fun k hk hk' => ?_) (.done _)
    obtain ⟨n, hn, -, hmark⟩ := hquotes k hk hk'
    exact .of_exposed hn (.of_delimits hmark)
  | text hslice _ hfree =>
    refine .text hslice (fun k hk hk' hhidden => ?_) (.done _)
    obtain ⟨m, hm, htakes, -⟩ := Node.exists_taken_of_hides h hhidden
    exact hfree k hk hk' m hm htakes
  | @closed n quoted hn hclosed hle hown =>
    obtain ⟨ho, hq⟩ := h _ (Node.mem_preorder_of_exposed hn)
    have hshows : Shows t a.Outermost n.Hides n.info.start n.info.stop (n.pieces t quoted) :=
      Node.shows_closed hclosed (Node.outermost_of_exposed hn) ho hq
    refine hshows.mono (fun _ => id) fun k hk hk' => ⟨.of_exposed hn, fun hhidden => ?_⟩
    obtain ⟨m, hm, htakes, hmk⟩ := Node.exists_taken_of_hides h hhidden
    rwa [hown k ⟨hk, hk'⟩ m hm htakes] at hmk

theorem Tiles.shows (h : ∀ m ∈ a.preorder, m.Orderly t.source ∧ m.ProperQuotes t)
    (htiles : Tiles t a start stop ps) : Shows t a.Outermost a.Hides start stop ps := by
  induction htiles with
  | nil => exact .done _
  | cons hblock _ ih => exact (hblock.shows h).append ih

theorem Node.shows_pieces (h : ∀ m ∈ n.preorder, m.Orderly t.source ∧ m.ProperQuotes t) :
    Shows t n.Outermost n.Hides n.info.innerStart n.info.innerStop (n.pieces t quoted) := by
  have htiles : Shows t n.Outermost n.Hides n.info.bodyStart n.info.bodyStop (n.pieces t quoted) :=
    (Node.tiles_pieces h).shows h
  obtain ⟨i, cs⟩ := n
  obtain ⟨ho, hq⟩ := h _ (mem_preorder_self _)
  rw [info_node] at htiles ⊢
  by_cases hs : isSingleQuoted i.kind
  · exact shows_singleQuoted hs ho hq
  · by_cases hd : isDoubleQuoted i.kind
    · rwa [(body_of_isDoubleQuoted hd).1, (body_of_isDoubleQuoted hd).2] at htiles
    · rw [(body_of_not hd).1, (body_of_not hd).2] at htiles
      rwa [(inner_of_plain hd hs).1, (inner_of_plain hd hs).2]

/--
What the pieces of a word show covers it once. The text and the variables in no other one are
stretches of the word, one after another, each with the part of the script that it is, and the bytes
of the word in none of them are those of quotes and of substitutions.
-/
theorem flatten_covers
    (h : ∀ n ∈ t.root.preorder, n.Orderly t.source ∧ n.ProperQuotes t)
    (ha : a ∈ t.root.preorder) :
    ∃ xs, Covering t a.Outermost a.Hides a.info.start a.info.stop (flatten t a) xs := by
  have hbelow : ∀ m ∈ a.preorder, m.Orderly t.source ∧ m.ProperQuotes t :=
    fun m hm => h m (Node.mem_preorder_trans ha hm)
  have hinner : a.info.innerStart ≤ a.info.innerStop ∧ a.info.innerStop ≤ a.info.stop := by
    cases a
    exact (Node.inner_le (h _ ha).1 (h _ ha).2).2
  have hclosing : Shows t a.Outermost a.Hides a.info.innerStop a.info.stop [] :=
    .pass hinner.2 (fun k hk hk' => .of_delimits (.inr ⟨hk, hk'⟩)) (.done _)
  have hshows : Shows t a.Outermost a.Hides a.info.start a.info.stop (flatten t a) := by
    rw [← List.append_nil (flatten t a)]
    exact .pass (Nat.le_add_right ..) (fun k hk hk' => .of_delimits (.inl ⟨hk, hk'⟩))
      ((Node.shows_pieces hbelow).append hclosing)
  exact hshows.exists_covering

theorem flatten_covers_quotedWord :
    (∀ n ∈ quotedWord.root.preorder, n.Orderly quotedWord.source ∧ n.ProperQuotes quotedWord) ∧
      flatten quotedWord quotedWord.root =
        [.var "F" "$\x7bF:-$T\x7d".toList true ⟨"expansion", none, true, 1, 9, 1, 2⟩,
          .var "T" "$T".toList true ⟨"simple_expansion", none, true, 6, 8, 1, 7⟩,
          .var "U" "$U".toList false ⟨"simple_expansion", none, true, 10, 12, 1, 11⟩,
          .substitution false,
          .text "*".toList true ⟨"raw_string", none, true, 17, 20, 1, 18⟩] ∧
      ∃ xs, Covering quotedWord quotedWord.root.Outermost quotedWord.root.Hides 0 20
        (flatten quotedWord quotedWord.root) xs := by
  have h : ∀ n ∈ quotedWord.root.preorder,
      n.Orderly quotedWord.source ∧ n.ProperQuotes quotedWord := by
    decide +kernel
  exact ⟨h, by decide +kernel, flatten_covers h (Node.mem_preorder_self _)⟩

end EbuildAudit.Shell
