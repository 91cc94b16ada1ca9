import EbuildAudit.Proofs.Shell.Layout

/-!
What stands behind a position in a word, once the quotes are taken away. If it is literal text, the
pieces show it next, unless there is nothing in a single-quoted text on the way to it.
-/

namespace EbuildAudit.Shell

open Text

/--
Neither substitutions nor nodes without children are empty, and an expansion in the operand of another
one starts behind it. Around a double-quoted text there are quotes, and no part of what is in it.
-/
structure Node.ProperTokens (n : Node) : Prop where
  nonempty : n.children = [] ∨ isSubstitution n.kind → n.info.start < n.info.stop
  later : isExpansion n.kind → ∀ m ∈ preorderAll n.children, isExpansion m.kind →
    n.info.start < m.info.start
  apart : isDoubleQuoted n.kind → ∀ m ∈ preorderAll n.children, isClosed m.kind →
    ∀ k < m.info.stop, m.info.start ≤ k → ¬n.info.Delimits k

instance (n : Node) : Decidable n.ProperTokens :=
  decidable_of_iff
    ((n.children = [] ∨ isSubstitution n.kind → n.info.start < n.info.stop) ∧
      (isExpansion n.kind → ∀ m ∈ Node.preorderAll n.children, isExpansion m.kind →
        n.info.start < m.info.start) ∧
      (isDoubleQuoted n.kind → ∀ m ∈ Node.preorderAll n.children, isClosed m.kind →
        ∀ k < m.info.stop, m.info.start ≤ k → ¬n.info.Delimits k))
    ⟨fun ⟨h₁, h₂, h₃⟩ => ⟨h₁, h₂, h₃⟩, fun ⟨h₁, h₂, h₃⟩ => ⟨h₁, h₂, h₃⟩⟩

/-- The nodes are where a parser puts them, and their positions tell where they start. -/
structure Tree.WellFormed (t : Tree) : Prop where
  orderly : ∀ n ∈ t.root.preorder, n.Orderly t.source
  quotes : ∀ n ∈ t.root.preorder, n.ProperQuotes t
  expansions : ∀ n ∈ t.root.preorder, n.ProperExpansions
  tokens : ∀ n ∈ t.root.preorder, n.ProperTokens
  located : ∀ m ∈ t.root.preorder, ∀ n ∈ t.root.preorder,
    m.info.line = n.info.line → m.info.column = n.info.column → m.info.start = n.info.start

namespace Node

def Quotes (a : Node) (k : Nat) : Prop :=
  ∃ m ∈ a.exposed, m.info.Delimits k

def IsText (a : Node) (k : Nat) : Prop :=
  a.info.Covers k ∧ ¬a.Quotes k ∧
    ∀ m ∈ a.exposed, isExpansion m.kind ∨ isSubstitution m.kind → ¬m.info.Covers k

instance (a : Node) (k : Nat) : Decidable (a.Quotes k) :=
  inferInstanceAs (Decidable (∃ m ∈ _, _))

instance (a : Node) (k : Nat) : Decidable (a.IsText k) :=
  inferInstanceAs (Decidable (_ ∧ _ ∧ ∀ m ∈ _, _ → _))

/-- Literal text goes on at a byte with a character, and there are only quotes before. -/
structure Continues (t : Tree) (a : Node) (start k : Nat) (c : Char) : Prop where
  start_le : start ≤ k
  quotes : ∀ j < k, start ≤ j → a.Quotes j
  text : a.IsText k
  char : charAt? t.source k = some c

instance (t : Tree) (a : Node) (start k : Nat) (c : Char) : Decidable (a.Continues t start k c) :=
  decidable_of_iff
    (start ≤ k ∧ (∀ j < k, start ≤ j → a.Quotes j) ∧ a.IsText k ∧ charAt? t.source k = some c)
    ⟨fun ⟨h₁, h₂, h₃, h₄⟩ => ⟨h₁, h₂, h₃, h₄⟩, fun ⟨h₁, h₂, h₃, h₄⟩ => ⟨h₁, h₂, h₃, h₄⟩⟩

/-- In this part of the word there is a single-quoted text with nothing in it. -/
def HasEmptyQuotes (a : Node) (start stop : Nat) : Prop :=
  ∃ m ∈ a.exposed, isSingleQuoted m.kind ∧ m.info.innerStart = m.info.innerStop ∧
    start ≤ m.info.start ∧ m.info.stop ≤ stop

instance (a : Node) (start stop : Nat) : Decidable (a.HasEmptyQuotes start stop) :=
  inferInstanceAs (Decidable (∃ m ∈ _, _))

end Node

def Piece.firstChar? : Piece → Option Char
  | .text cs .. => cs.head?
  | _ => none

variable {t : Tree} {i : NodeInfo} {cs : List Node} {a m n : Node} {start next stop k : Nat} {c : Char}
  {ps : List Piece} {inner : List Char}

theorem Node.Continues.unique {l : Nat} {d : Char} (h : a.Continues t start k c)
    (h' : a.Continues t start l d) : k = l ∧ c = d := by
  obtain rfl : k = l := by
    rcases Nat.lt_trichotomy k l with hlt | heq | hlt
    · exact absurd (h'.quotes k hlt h.start_le) h.text.2.1
    · exact heq
    · exact absurd (h.quotes l hlt h'.start_le) h'.text.2.1
  exact ⟨rfl, Option.some.inj (h.char.symm.trans h'.char)⟩

theorem Node.Delimited.continues_iff (hquotes : a.Delimited start next) (hle : start ≤ next) :
    a.Continues t start k c ↔ a.Continues t next k c := by
  have hquotes (j : Nat) (hj : start ≤ j) (hj' : j < next) : a.Quotes j := by
    obtain ⟨n, hn, -, hmark⟩ := hquotes j hj hj'
    exact ⟨n, hn, hmark⟩
  constructor
  · intro h
    have hnext : next ≤ k := Nat.not_lt.1 fun hlt => h.text.2.1 (hquotes k h.start_le hlt)
    exact ⟨hnext, fun j hj hj' => h.quotes j hj (Nat.le_trans hle hj'), h.text, h.char⟩
  · intro h
    refine ⟨Nat.le_trans hle h.start_le, fun j hj hj' => ?_, h.text, h.char⟩
    rcases Nat.lt_or_ge j next with hlt | hge
    · exact hquotes j hj' hlt
    · exact h.quotes j hj hge

theorem isClosed_of {kind : String} (h : isExpansion kind ∨ isSubstitution kind) : isClosed kind := by
  rcases h with h | h <;> simp [isClosed, h]

theorem isClosed_of_isSingleQuoted {kind : String} (h : isSingleQuoted kind) : isClosed kind := by
  simp [isClosed, h]

theorem of_isClosed {kind : String} (h : isClosed kind) (hs : ¬isSingleQuoted kind) :
    isExpansion kind ∨ isSubstitution kind := by
  simpa [isClosed, hs] using h

theorem not_delimits_of (h : isExpansion i.kind ∨ isSubstitution i.kind) (hk : i.Covers k) :
    ¬i.Delimits k := by
  have hkind : isDoubleQuoted i.kind = false ∧ isSingleQuoted i.kind = false :=
    h.elim (fun he => ⟨(of_isExpansion he).1, (of_isExpansion he).2.1⟩)
      fun hb => ⟨(of_isSubstitution hb).1, (of_isSubstitution hb).2.1⟩
  obtain ⟨hstart, hstop⟩ := inner_of_plain (Bool.eq_false_iff.1 hkind.1) (Bool.eq_false_iff.1 hkind.2)
  exact not_delimits (hstart ▸ hk.1) (hstop ▸ hk.2)

theorem start_lt_innerStart (h : isSingleQuoted i.kind) : i.start < i.innerStart := by
  have hkind : i.kind = "raw_string" ∨ i.kind = "ansi_c_string" := by simpa [isSingleQuoted] using h
  rw [NodeInfo.innerStart]
  rcases hkind with hkind | hkind <;> rw [hkind] <;> exact Nat.lt_add_of_pos_right (by decide)

theorem Node.lt_of_isSingleQuoted (hs : isSingleQuoted n.kind) (ho : n.Orderly t.source)
    (hq : n.ProperQuotes t) : n.info.start < n.info.stop := by
  obtain ⟨i, cs⟩ := n
  have hmark : i.start < i.innerStart := start_lt_innerStart hs
  have hinner := inner_le ho hq
  exact Nat.lt_of_lt_of_le hmark (Nat.le_trans hinner.2.1 hinner.2.2)

theorem Node.not_delimits_of_exposed (h : ∀ m ∈ a.preorder, m.Orderly t.source ∧ m.ProperQuotes t)
    (htokens : ∀ m ∈ a.preorder, m.ProperTokens) (hm : m ∈ a.exposed) (hn : n ∈ a.exposed)
    (hclosed : isClosed m.kind) (hk : m.info.Covers k) (hd : isDoubleQuoted n.kind) :
    ¬n.info.Delimits k := by
  induction a with
  | node i cs ih =>
    obtain ⟨⟨ho, -⟩, hbelow⟩ := forall_mem_preorder_node.1 h
    obtain ⟨hself, htokens⟩ := forall_mem_preorder_node.1 htokens
    rcases mem_exposed_node.1 hm with rfl | ⟨hi, c, hc, hmc⟩
    · -- nothing below is come to
      rcases mem_exposed_node.1 hn with rfl | ⟨hi, -⟩
      · exact absurd hd (not_isDoubleQuoted_of_isClosed hclosed)
      · exact absurd hclosed hi
    · rcases mem_exposed_node.1 hn with rfl | ⟨-, d, hd', hnd⟩
      · have hmem := mem_preorderAll.2 ⟨c, hc, mem_preorder_of_exposed hmc⟩
        exact hself.apart hd m hmem hclosed k hk.2 hk.1
      · intro hmark
        have hck : c.info.Covers k := Takes.within (hbelow c hc) hmc (.inr ⟨hclosed, hk⟩)
        have hdk : d.info.Covers k := Takes.within (hbelow d hd') hnd (.inl ⟨hd, hmark⟩)
        obtain rfl := ho.eq_of_covers hc hd' hck hdk
        exact ih c hc (hbelow c hc) (htokens c hc) hmc hnd hmark

section

variable (ht : t.WellFormed) (ha : a ∈ t.root.preorder)
include ht ha

theorem Tree.WellFormed.layout (hm : m ∈ a.preorder) : m.Orderly t.source ∧ m.ProperQuotes t :=
  ⟨ht.orderly m (Node.mem_preorder_trans ha hm), ht.quotes m (Node.mem_preorder_trans ha hm)⟩

theorem Tree.WellFormed.layout_of_exposed (hm : m ∈ a.exposed) :
    m.Orderly t.source ∧ m.ProperQuotes t :=
  ht.layout ha (Node.mem_preorder_of_exposed hm)

theorem Tree.WellFormed.lt_of_exposed (hm : m ∈ a.exposed) (hclosed : isClosed m.kind) :
    m.info.start < m.info.stop := by
  have hmem := Node.mem_preorder_trans ha (Node.mem_preorder_of_exposed hm)
  have hkind : (isSingleQuoted m.kind ∨ isExpansion m.kind) ∨ isSubstitution m.kind := by
    simpa [isClosed] using hclosed
  rcases hkind with (hs | he) | hb
  · exact Node.lt_of_isSingleQuoted hs (ht.orderly m hmem) (ht.quotes m hmem)
  · exact (ht.expansions m hmem).nonempty he
  · exact (ht.tokens m hmem).nonempty (.inr hb)

theorem Tree.WellFormed.exists_taken (hk : a.Quotes k) :
    ∃ m ∈ a.exposed, m.Takes k ∧ m.info.Delimits k := by
  obtain ⟨m, hm, hmark⟩ := hk
  obtain ⟨ho, hq⟩ := ht.layout_of_exposed ha hm
  exact ⟨m, hm, Node.takes_of_delimits ho hq hmark, hmark⟩

theorem Tree.WellFormed.isText_of_free (hk : a.info.Covers k) (hfree : ∀ m ∈ a.exposed, ¬m.Takes k) :
    a.IsText k := by
  refine ⟨hk, fun hquotes => ?_, fun m hm hkind hcovers => ?_⟩
  · obtain ⟨m, hm, htakes, -⟩ := ht.exists_taken ha hquotes
    exact hfree m hm htakes
  · exact hfree m hm (.inr ⟨isClosed_of hkind, hcovers⟩)

theorem Tree.WellFormed.isText_of_own (hk : a.info.Covers k) (hs : isSingleQuoted n.kind)
    (hown : ∀ m ∈ a.exposed, m.Takes k → m = n) (hmark : ¬n.info.Delimits k) : a.IsText k := by
  refine ⟨hk, fun hquotes => ?_, fun m hm hkind hcovers => ?_⟩
  · obtain ⟨m, hm, htakes, hmk⟩ := ht.exists_taken ha hquotes
    rw [hown m hm htakes] at hmk
    exact hmark hmk
  · rw [hown m hm (.inr ⟨isClosed_of hkind, hcovers⟩)] at hkind
    obtain ⟨-, he, hb⟩ := of_isSingleQuoted hs
    simp [he, hb] at hkind

theorem Tree.WellFormed.hasEmptyQuotes_iff (hquotes : a.Delimited start next) (hle : start ≤ next) :
    a.HasEmptyQuotes start k ↔ a.HasEmptyQuotes next k := by
  constructor
  · rintro ⟨m, hm, hs, hinner, hstart, hstop⟩
    have hclosed := isClosed_of_isSingleQuoted hs
    refine ⟨m, hm, hs, hinner, Nat.not_lt.1 fun hlt => ?_, hstop⟩
    obtain ⟨n, hn, hd, hmark⟩ := hquotes m.info.start hstart hlt
    exact Node.not_delimits_of_exposed (fun m hm => ht.layout ha hm)
      (fun m hm => ht.tokens m (Node.mem_preorder_trans ha hm)) hm hn hclosed
      ⟨Nat.le_refl _, ht.lt_of_exposed ha hm hclosed⟩ hd hmark
  · rintro ⟨m, hm, hs, hinner, hstart, hstop⟩
    exact ⟨m, hm, hs, hinner, Nat.le_trans hle hstart, hstop⟩

end

theorem firstChar?_of_closed {quoted : Bool} (h : isExpansion n.kind ∨ isSubstitution n.kind) :
    (n.pieces t quoted ++ ps).head?.bind Piece.firstChar? = none := by
  obtain ⟨i, cs⟩ := n
  rw [Node.kind_node] at h
  rcases h with he | hb
  · rw [Node.pieces_of_isExpansion he, Node.nestedVariables, if_pos he]
    rfl
  · rw [Node.pieces_of_isSubstitution hb]
    rfl

section

variable (ht : t.WellFormed) (ha : a ∈ t.root.preorder) (hn : n ∈ a.exposed)
  (hs : isSingleQuoted n.kind)
  (hown : ∀ k, n.info.Covers k → ∀ m ∈ a.exposed, m.Takes k → m = n)
  (hslice : slice? t.source n.info.innerStart n.info.innerStop = some inner)
include ht ha hn hs hown hslice

theorem Tree.WellFormed.continues_of_inner (hwithin : a.info.start ≤ n.info.start)
    (hwithin' : n.info.stop ≤ a.info.stop) (hc : inner.head? = some c) :
    a.Continues t n.info.start n.info.innerStart c ∧
      ¬a.HasEmptyQuotes n.info.start n.info.innerStart := by
  obtain ⟨rest, rfl⟩ := List.head?_eq_some_iff.1 hc
  have hmark := start_lt_innerStart hs
  have hinner := lt_of_slice?_cons hslice
  have hend : n.info.innerStop ≤ n.info.stop := Nat.sub_le ..
  have htext : a.IsText n.info.innerStart :=
    ht.isText_of_own ha ⟨by omega, by omega⟩ hs (hown _ ⟨by omega, by omega⟩)
      (not_delimits (Nat.le_refl _) hinner)
  refine ⟨⟨Nat.le_of_lt hmark, fun j hj hj' => ⟨n, hn, .inl ⟨hj', hj⟩⟩, htext,
    charAt?_of_slice? hslice⟩, ?_⟩
  rintro ⟨m, hm, hs', -, hstart, hstop⟩
  have hclosed := isClosed_of_isSingleQuoted hs'
  have hpos := ht.lt_of_exposed ha hm hclosed
  rw [hown m.info.start ⟨hstart, by omega⟩ m hm (.inr ⟨hclosed, Nat.le_refl _, hpos⟩)] at hstop
  omega

theorem Tree.WellFormed.head_inner_of_continues (hk : a.Continues t n.info.start k c)
    (hempty : ¬a.HasEmptyQuotes n.info.start k) : inner.head? = some c := by
  have hfirst := hk.start_le
  have hmark : n.info.innerStart ≤ k :=
    Nat.not_lt.1 fun hlt => hk.text.2.1 ⟨n, hn, .inl ⟨hfirst, hlt⟩⟩
  cases inner with
  | nil =>
    have hnothing := (eq_nil_iff_of_slice? hslice).1 rfl
    refine absurd ⟨n, hn, hs, hnothing, Nat.le_refl _, Nat.not_lt.1 fun hlt => ?_⟩ hempty
    exact hk.text.2.1 ⟨n, hn, .inr ⟨hnothing ▸ hmark, hlt⟩⟩
  | cons d inner =>
    have hinner := lt_of_slice?_cons hslice
    have hend : n.info.innerStop ≤ n.info.stop := Nat.sub_le ..
    have hcovers : n.info.Covers n.info.innerStart := ⟨Nat.le_add_right .., by omega⟩
    have hhere : n.info.innerStart = k := by
      refine Nat.le_antisymm hmark (Nat.not_lt.1 fun hbefore => ?_)
      obtain ⟨m, hm, htakes, hmk⟩ :=
        ht.exists_taken ha (hk.quotes _ hbefore (Nat.le_add_right ..))
      rw [hown _ hcovers m hm htakes] at hmk
      exact not_delimits (Nat.le_refl _) hinner hmk
    have hchar := hk.char
    rwa [← hhere, charAt?_of_slice? hslice] at hchar

end

namespace Tiles

section

variable (ht : t.WellFormed) (ha : a ∈ t.root.preorder)
include ht ha

theorem exists_continues (htiles : Tiles t a start stop ps) (hstart : a.info.start ≤ start)
    (hstop : stop = a.info.stop) (hc : ps.head?.bind Piece.firstChar? = some c) :
    ∃ k, a.Continues t start k c ∧ ¬a.HasEmptyQuotes start k := by
  induction htiles with
  | nil => cases hc
  | @cons start next stop ps qs hblock hrest ih =>
    have hle := hrest.le
    cases hblock with
    | quote hle' hquotes =>
      obtain ⟨k, hk, hempty⟩ := ih (by omega) hstop hc
      rw [← ht.hasEmptyQuotes_iff ha hquotes hle'] at hempty
      exact ⟨k, (hquotes.continues_iff hle').2 hk, hempty⟩
    | text hslice _ hfree =>
      obtain ⟨rest, rfl⟩ := List.head?_eq_some_iff.1 hc
      have hlt := lt_of_slice?_cons hslice
      have htext : a.IsText start :=
        ht.isText_of_free ha ⟨hstart, by omega⟩ (hfree start (Nat.le_refl _) hlt)
      refine ⟨start, ⟨Nat.le_refl _, fun j hj hj' => by omega, htext, charAt?_of_slice? hslice⟩, ?_⟩
      rintro ⟨m, hm, hs, -, hmstart, hmstop⟩
      have := ht.lt_of_exposed ha hm (isClosed_of_isSingleQuoted hs)
      omega
    | @closed n quoted hn hclosed _ hown =>
      by_cases hs : isSingleQuoted n.kind
      · obtain ⟨ho, hq⟩ := ht.layout_of_exposed ha hn
        obtain ⟨inner, hpieces, hslice⟩ := Node.exists_text hs ho hq
        rw [hpieces] at hc
        exact ⟨_, ht.continues_of_inner ha hn hs hown hslice hstart (by omega) hc⟩
      · rw [firstChar?_of_closed (of_isClosed hclosed hs)] at hc
        cases hc

theorem head_of_continues (htiles : Tiles t a start stop ps)
    (hstop : stop = a.info.stop) (hk : a.Continues t start k c) (hempty : ¬a.HasEmptyQuotes start k) :
    ps.head?.bind Piece.firstChar? = some c := by
  induction htiles with
  | nil =>
    have := hk.text.1.2
    have := hk.start_le
    omega
  | @cons start next stop ps qs hblock hrest ih =>
    have hfirst := hk.start_le
    cases hblock with
    | quote hle hquotes =>
      rw [ht.hasEmptyQuotes_iff ha hquotes hle] at hempty
      exact ih hstop ((hquotes.continues_iff hle).1 hk) hempty
    | @text _ _ cs _ _ hslice hleaf hfree =>
      have hlt : start < next := by
        refine Nat.lt_of_le_of_ne (le_of_slice? hslice) fun heq => ?_
        obtain ⟨n, hn, hchildren, hspan⟩ := hleaf heq
        have hmem := Node.mem_preorder_trans ha (Node.mem_preorder_of_exposed hn)
        have := (ht.tokens n hmem).nonempty (.inl hchildren)
        omega
      have hhere : start = k := by
        refine Nat.le_antisymm hfirst (Nat.not_lt.1 fun hbefore => ?_)
        obtain ⟨m, hm, htakes, -⟩ := ht.exists_taken ha (hk.quotes start hbefore (Nat.le_refl _))
        exact hfree start (Nat.le_refl _) hlt m hm htakes
      obtain rfl := hhere
      cases cs with
      | nil => exact absurd ((eq_nil_iff_of_slice? hslice).1 rfl) (Nat.ne_of_lt hlt)
      | cons d cs =>
        have hchar := hk.char
        rw [charAt?_of_slice? hslice] at hchar
        exact hchar
    | @closed n quoted hn hclosed _ hown =>
      have hlt := ht.lt_of_exposed ha hn hclosed
      by_cases hs : isSingleQuoted n.kind
      · obtain ⟨ho, hq⟩ := ht.layout_of_exposed ha hn
        obtain ⟨inner, hpieces, hslice⟩ := Node.exists_text hs ho hq
        rw [hpieces]
        exact ht.head_inner_of_continues ha hn hs hown hslice hk hempty
      · have hkind := of_isClosed hclosed hs
        rcases Nat.lt_or_eq_of_le hfirst with hbefore | rfl
        · obtain ⟨m, hm, htakes, hmark⟩ :=
            ht.exists_taken ha (hk.quotes _ hbefore (Nat.le_refl _))
          rw [hown _ ⟨Nat.le_refl _, hlt⟩ m hm htakes] at hmark
          exact absurd hmark (not_delimits_of hkind ⟨Nat.le_refl _, hlt⟩)
        · exact absurd ⟨Nat.le_refl _, hlt⟩ (hk.text.2.2 n hn hkind)

end

end Tiles

end EbuildAudit.Shell
