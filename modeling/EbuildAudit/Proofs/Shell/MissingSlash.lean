import EbuildAudit.Proofs.Shell.Continuation
import EbuildAudit.Proofs.Shell.Detection

namespace EbuildAudit.Shell

open Text

/-- In the operand of an expansion there is another one, and it is in no substitution. -/
def Node.HasOperandVariables (n : Node) : Prop :=
  ∃ c ∈ n.children, ∃ place ∈ c.placed [], isVisible place

instance (n : Node) : Decidable n.HasOperandVariables :=
  inferInstanceAs (Decidable (∃ c ∈ _, _))

def Finding.At (f : Finding) (i : NodeInfo) : Prop :=
  f.line = i.line ∧ f.column = i.column

def Piece.variableStart? : Piece → Option Nat
  | .var _ _ _ i => some i.start
  | _ => none

variable {α β : Type} {t : Tree} {i : NodeInfo} {cs : List Node} {a m n cmd : Node}
  {above : List NodeInfo} {quoted : Bool} {eapi : Option Nat} {c : Char}

theorem mem_neighbours {xs : List α} {x y : α} :
    (x, y) ∈ neighbours xs ↔ ∃ before after, xs = before ++ x :: y :: after := by
  constructor
  · intro h
    induction xs with
    | nil => cases h
    | cons z xs ih =>
      cases xs with
      | nil => cases h
      | cons w xs =>
        rcases List.mem_cons.1 h with heq | h
        · cases heq
          exact ⟨[], xs, rfl⟩
        · obtain ⟨before, after, hxs⟩ := ih h
          exact ⟨z :: before, after, congrArg (z :: ·) hxs⟩
  · rintro ⟨before, after, rfl⟩
    induction before with
    | nil => exact List.mem_cons_self
    | cons z before ih =>
      cases before <;> exact List.mem_cons_of_mem _ ih

theorem split_unique {key : α → Option β} {b : β} {x y : α} {before before' after after' : List α}
    (h : before ++ x :: after = before' ++ y :: after')
    (hkeys : ((before ++ x :: after).filterMap key).Nodup) (hx : key x = some b)
    (hy : key y = some b) : x = y ∧ after = after' := by
  induction before generalizing before' with
  | nil =>
    cases before' with
    | nil => exact List.cons.inj h
    | cons z before' =>
      obtain ⟨rfl, rfl⟩ := List.cons.inj h
      simp [hx, hy] at hkeys
  | cons z before ih =>
    cases before' with
    | nil =>
      obtain ⟨rfl, rfl⟩ := List.cons.inj h
      simp [hx, hy] at hkeys
    | cons w before' =>
      have hsub : ((before ++ x :: after).filterMap key).Sublist
          ((z :: (before ++ x :: after)).filterMap key) :=
        (List.sublist_cons_self ..).filterMap key
      exact ih (List.cons.inj h).2 (hsub.nodup hkeys)

namespace Node

theorem placedVariables_eq_nil_iff (habove : above.any (isSubstitution ·.kind) = false) :
    n.placedVariables t above = [] ↔ ∀ place ∈ n.placed [], ¬isVisible place := by
  rw [placedVariables, List.map_eq_nil_iff, List.filter_eq_nil_iff, placed_eq_map]
  simp only [List.forall_mem_map]
  refine forall_congr' fun place => forall_congr' fun _ => not_congr ?_
  simp only [isVisible, List.any_cons, List.any_append, habove, Bool.or_false]

theorem exists_operand (hn : ∀ m ∈ n.preorder, m.ProperExpansions) (he : isExpansion n.kind)
    (quoted : Bool) :
    ∃ nested, n.nestedVariables t quoted = variablePiece t quoted n.info n.children :: nested ∧
      (∀ x ∈ nested, x.isVariable) ∧ (nested = [] ↔ ¬n.HasOperandVariables) := by
  obtain ⟨i, cs⟩ := n
  rw [kind_node] at he
  -- something that is quoted in this way, for the variables to be found in it
  obtain ⟨above, rfl, hb⟩ : ∃ above : List NodeInfo,
      above.any (isDoubleQuoted ·.kind) = quoted ∧ above.any (isSubstitution ·.kind) = false := by
    cases quoted with
    | false => exact ⟨[], rfl, rfl⟩
    | true => exact ⟨[⟨"string", none, true, 0, 0, 0, 0⟩], by decide, by decide⟩
  obtain ⟨-, -, hb'⟩ := of_isExpansion he
  have hvisible : isVisible (above, node i cs) := by simp [isVisible, he, hb, hb']
  have habove : (i :: above).any (isSubstitution ·.kind) = false := by
    rw [List.any_cons, hb', hb, Bool.false_or]
  have heq : (node i cs).nestedVariables t (above.any (isDoubleQuoted ·.kind)) =
      placedVariable t (above, node i cs) :: cs.flatMap (placedVariables t (i :: above)) := by
    rw [nestedVariables_eq hn hb, placedVariables_node, if_pos hvisible, List.singleton_append]
  refine ⟨_, heq, fun x hx =>
    isVariable_of_mem_nestedVariables (heq ▸ List.mem_cons_of_mem _ hx), ?_⟩
  simp only [children, List.flatMap_eq_nil_iff, placedVariables_eq_nil_iff habove,
    HasOperandVariables, not_exists, not_and]

theorem pairwise_starts
    (h : ∀ m ∈ a.preorder, m.Orderly t.source ∧ m.ProperExpansions ∧ m.ProperTokens) :
    (a.preorder.filter (isExpansion ·.kind)).Pairwise fun m n => m.info.start < n.info.start := by
  induction a with
  | node i cs ih =>
    obtain ⟨⟨ho, -, hself⟩, hbelow⟩ := forall_mem_preorder_node.1 h
    have hchildren : ((preorderAll cs).filter (isExpansion ·.kind)).Pairwise
        fun m n => m.info.start < n.info.start := by
      rw [preorderAll_eq_flatMap, List.filter_flatMap, List.pairwise_flatMap]
      refine ⟨fun c hc => ih c hc (hbelow c hc),
        ho.ordered.imp_of_mem fun {c d} hc hd hcd m hm n hn => ?_⟩
      obtain ⟨hm, he⟩ := List.mem_filter.1 hm
      obtain ⟨hn, -⟩ := List.mem_filter.1 hn
      have := (Orderly.within (fun m hm => (hbelow c hc m hm).1) hm).2
      have := (Orderly.within (fun m hm => (hbelow d hd m hm).1) hn).1
      have := (hbelow c hc m hm).2.1.nonempty he
      omega
    rw [preorder, List.filter_cons]
    split
    case isTrue he =>
      refine List.pairwise_cons.2 ⟨fun m hm => ?_, hchildren⟩
      obtain ⟨hm, he'⟩ := List.mem_filter.1 hm
      exact hself.later he m hm he'
    case isFalse => exact hchildren

end Node

section

variable (ht : t.WellFormed) (ha : a ∈ t.root.preorder)
include ht ha

theorem Tree.WellFormed.exists_split (hn : n ∈ a.exposed) (he : isExpansion n.kind) :
    ∃ before quoted nested after, flatten t a =
        before ++ variablePiece t quoted n.info n.children :: (nested ++ after) ∧
      (∀ x ∈ nested, x.isVariable) ∧ (nested = [] ↔ ¬n.HasOperandVariables) ∧
      Tiles t a n.info.stop a.info.stop after := by
  have hclosed : isClosed n.kind := isClosed_of (.inl he)
  have hcovers : n.info.Covers n.info.start := ⟨Nat.le_refl _, ht.lt_of_exposed ha hn hclosed⟩
  have htakes : n.Takes n.info.start := .inr ⟨hclosed, hcovers⟩
  obtain ⟨hstart, hstop⟩ := Node.Orderly.within (fun m hm => (ht.layout ha hm).1)
    (Node.mem_preorder_of_exposed hn)
  obtain ⟨from', to', before, shown, after, hpieces, hblock, hfrom, hto, hrest⟩ :=
    (tiles_flatten fun m hm => ht.layout ha hm).exists_block hstart
      (Nat.lt_of_lt_of_le hcovers.2 hstop)
  cases hblock with
  | quote _ hquotes =>
    obtain ⟨m, hm, hd, hmark⟩ := hquotes _ hfrom hto
    exact absurd hmark (Node.not_delimits_of_exposed (fun m hm => ht.layout ha hm)
      (fun m hm => ht.tokens m (Node.mem_preorder_trans ha hm)) hn hm hclosed hcovers hd)
  | text _ _ hfree => exact absurd htakes (hfree _ hfrom hto n hn)
  | @closed m quoted _ _ _ hown =>
    obtain rfl := hown _ ⟨hfrom, hto⟩ n hn htakes
    have hmem := Node.mem_preorder_trans ha (Node.mem_preorder_of_exposed hn)
    obtain ⟨nested, hnested, hvariables, hlast⟩ := Node.exists_operand (t := t)
      (fun m hm => ht.expansions m (Node.mem_preorder_trans hmem hm)) he quoted
    refine ⟨before, quoted, nested, after, ?_, hvariables, hlast, hrest⟩
    rw [hpieces, Node.pieces_eq_nestedVariables he, hnested, List.cons_append]

theorem Tree.WellFormed.nodup_starts : ((flatten t a).filterMap Piece.variableStart?).Nodup := by
  obtain ⟨hvariables, hnodes⟩ :=
    flatten_variables (fun m hm => ⟨ht.orderly m hm, ht.expansions m hm⟩) ha
  have hkept : ((flatten t a).filter Piece.isVariable).filterMap Piece.variableStart? =
      (flatten t a).filterMap Piece.variableStart? :=
    filterMap_filter_eq_iff.2 fun x _ hx => by
      cases x <;> first | rfl | cases hx
  have hstarts : (a.preorder.filter (isExpansion ·.kind)).Pairwise
      fun m n => m.info.start < n.info.start :=
    Node.pairwise_starts fun m hm =>
      have hmem := Node.mem_preorder_trans ha hm
      ⟨ht.orderly m hmem, ht.expansions m hmem, ht.tokens m hmem⟩
  rw [← hnodes, List.filter_map, List.pairwise_map] at hstarts
  have hvisible : ((a.placed []).filter isVisible).Sublist
      ((a.placed []).filter ((isExpansion ·.kind) ∘ (·.2))) :=
    List.monotone_filter_right _ fun place h => (Bool.and_eq_true_iff.1 h).1
  rw [← hkept, hvariables, List.filterMap_map, List.Nodup, List.pairwise_filterMap]
  refine (hstarts.sublist hvisible).imp fun {x y} hlt b hb b' hb' => ?_
  cases hb
  cases hb'
  exact Nat.ne_of_lt hlt

end

theorem mem_children_of_commandArgs (h : a ∈ commandArgs n) : a ∈ n.children :=
  List.mem_of_mem_filter
    (List.dropWhile_subset _ (List.mem_of_mem_drop (List.mem_of_mem_filter h)))

theorem mem_preorder_of_commandArgs (hcmd : cmd ∈ m.preorder) (ha : a ∈ commandArgs cmd) :
    a ∈ m.preorder :=
  Node.mem_preorder_trans hcmd (Node.mem_preorder_of_child (mem_children_of_commandArgs ha))

theorem exists_of_missingSlash? {x y : Piece} {f : Finding} (h : missingSlash? (x, y) = some f) :
    ∃ name chars quoted i, x = .var name chars quoted i ∧ f.At i ∧
      ∃ c, y.firstChar? = some c ∧ isGlued c := by
  rw [missingSlash?.eq_def] at h
  split at h
  case h_1 name chars quoted i text _ _ heq =>
    obtain ⟨rfl, rfl⟩ := Prod.mk.inj heq
    obtain ⟨hfound, h⟩ := Option.ite_none_right_eq_some.1 h
    cases h
    exact ⟨name, chars, quoted, i, rfl, ⟨rfl, rfl⟩,
      (Option.any_eq_true _ _).1 (Bool.and_eq_true_iff.1 hfound).2⟩
  case h_2 => cases h

theorem exists_missingSlash? {y : Piece} (hroot : variableName t n.children ∈ rootVariables)
    (hpercent : '%' ∉ t.chars n.info) (hy : y.firstChar? = some c) (hc : isGlued c) :
    ∃ f, missingSlash? (variablePiece t quoted n.info n.children, y) = some f ∧ f.At n.info := by
  cases y with
  | text cs =>
    have hfound : (rootVariables.contains (variableName t n.children) &&
        !(t.chars n.info).contains '%' && cs.head?.any isGlued) = true := by
      rw [Piece.firstChar?] at hy
      simp [hroot, hpercent, hy, hc]
    exact ⟨_, if_pos hfound, rfl, rfl⟩
  | var => cases hy
  | substitution => cases hy

theorem Tree.WellFormed.mem_exposed (ht : t.WellFormed) (ha : a ∈ t.root.preorder)
    (hplaced : (above, n) ∈ a.placed [])
    (habove : ∀ i ∈ above, ¬isExpansion i.kind ∧ ¬isSubstitution i.kind)
    (he : isExpansion n.kind) : n ∈ a.exposed := by
  refine Node.mem_exposed.2 ⟨above, hplaced, fun i hi => not_isClosed.2 ⟨fun hs => ?_, habove i hi⟩⟩
  obtain ⟨m, hm, rfl, hbelow⟩ := Node.exists_above hplaced hi
  exact (ht.expansions m (Node.mem_preorder_trans ha hm)).absent (.inr hs) n hbelow he

theorem Tree.WellFormed.variableStart?_of_located (ht : t.WellFormed) (ha : a ∈ t.root.preorder)
    (hn : n ∈ t.root.preorder) {name : String} {chars : List Char}
    (hmem : Piece.var name chars quoted i ∈ flatten t a)
    (hline : i.line = n.info.line) (hcolumn : i.column = n.info.column) :
    i.start = n.info.start ∧ a.info.Covers n.info.start := by
  have hvariables := (flatten_variables (fun m hm => ⟨ht.orderly m hm, ht.expansions m hm⟩) ha).1
  have hvar : Piece.var name chars quoted i ∈ (flatten t a).filter Piece.isVariable :=
    List.mem_filter.2 ⟨hmem, rfl⟩
  rw [hvariables] at hvar
  obtain ⟨⟨up, m⟩, hplace, heq⟩ := List.mem_map.1 hvar
  obtain ⟨hplace, hvisible⟩ := List.mem_filter.1 hplace
  have hm := Node.mem_preorder_of_placed hplace
  cases heq
  have hstart := ht.located m (Node.mem_preorder_trans ha hm) n hn hline hcolumn
  have hwithin := Node.Orderly.within (fun m hm => (ht.layout ha hm).1) hm
  have hpos := (ht.expansions m (Node.mem_preorder_trans ha hm)).nonempty
    (Bool.and_eq_true_iff.1 hvisible).1
  exact ⟨hstart, by rw [NodeInfo.Covers]; omega⟩

theorem exists_at_iff_next (ht : t.WellFormed) (hcmd : cmd ∈ t.root.preorder)
    (ha : a ∈ commandArgs cmd) (hn : n ∈ a.preorder) {before rest : List Piece}
    (hflatten : flatten t a = before ++ variablePiece t quoted n.info n.children :: rest)
    (hroot : variableName t n.children ∈ rootVariables) (hpercent : '%' ∉ t.chars n.info) :
    (∃ f ∈ Detector.missingSlash.inspect ⟨t, eapi⟩ cmd, f.At n.info) ↔
      ∃ c, rest.head?.bind Piece.firstChar? = some c ∧ isGlued c := by
  have hargs {b : Node} (hb : b ∈ commandArgs cmd) := mem_preorder_of_commandArgs hcmd hb
  have hroot' : n ∈ t.root.preorder := Node.mem_preorder_trans (hargs ha) hn
  have hself : variablePiece t quoted n.info n.children ∈ flatten t a := by
    rw [hflatten]
    exact List.mem_append_right _ List.mem_cons_self
  constructor
  · rintro ⟨f, hf, hline, hcolumn⟩
    obtain ⟨b, hb, hf⟩ := List.mem_flatMap.1 hf
    obtain ⟨⟨x, y⟩, hpair, hf⟩ := List.mem_filterMap.1 hf
    obtain ⟨before', after, hsplit⟩ := mem_neighbours.1 hpair
    obtain ⟨name, chars, q, i, rfl, ⟨hline', hcolumn'⟩, c, hy, hglued⟩ := exists_of_missingSlash? hf
    obtain ⟨hsame, hcovers⟩ := ht.variableStart?_of_located (hargs hb) hroot'
      (hsplit ▸ List.mem_append_right _ List.mem_cons_self) (hline'.symm.trans hline)
      (hcolumn'.symm.trans hcolumn)
    -- there is one argument only with this byte in it, and one variable only that starts with it
    obtain rfl : b = a :=
      (ht.orderly cmd hcmd).eq_of_covers (mem_children_of_commandArgs hb)
        (mem_children_of_commandArgs ha) hcovers
        (ht.variableStart?_of_located (hargs ha) hroot' hself rfl rfl).2
    have hkeys := ht.nodup_starts (hargs ha)
    rw [hsplit] at hflatten hkeys
    obtain ⟨-, rfl⟩ := split_unique hflatten hkeys (congrArg some hsame) rfl
    exact ⟨c, hy, hglued⟩
  · rintro ⟨c, hc, hglued⟩
    cases rest with
    | nil => cases hc
    | cons y rest =>
      obtain ⟨f, hf, hat⟩ := exists_missingSlash? hroot hpercent hc hglued
      refine ⟨f, List.mem_flatMap.2 ⟨a, ha, List.mem_filterMap.2 ⟨_, ?_, hf⟩⟩, hat⟩
      exact mem_neighbours.2 ⟨before, rest, hflatten⟩

theorem exists_at_iff (ht : t.WellFormed) (hcmd : cmd ∈ t.root.preorder)
    (ha : a ∈ commandArgs cmd) (hn : n ∈ a.exposed) (he : isExpansion n.kind)
    (hroot : variableName t n.children ∈ rootVariables) (hpercent : '%' ∉ t.chars n.info) :
    (∃ f ∈ Detector.missingSlash.inspect ⟨t, eapi⟩ cmd, f.At n.info) ↔
      ∃ k c, a.Continues t n.info.stop k c ∧ isGlued c ∧ ¬a.HasEmptyQuotes n.info.stop k ∧
        ¬n.HasOperandVariables := by
  have hmem := mem_preorder_of_commandArgs hcmd ha
  have hbelow := Node.mem_preorder_of_exposed hn
  have hstop : a.info.start ≤ n.info.stop := by
    have hwithin := (Node.Orderly.within (fun m hm => (ht.layout hmem hm).1) hbelow).1
    exact Nat.le_trans hwithin (ht.layout hmem hbelow).1.start_le_stop
  obtain ⟨before, quoted, nested, after, hflatten, hvariables, hlast, htiles⟩ :=
    ht.exists_split hmem hn he
  rw [exists_at_iff_next ht hcmd ha hbelow hflatten hroot hpercent]
  cases nested with
  | nil =>
    have hvars : ¬n.HasOperandVariables := hlast.1 rfl
    constructor
    · rintro ⟨c, hc, hglued⟩
      obtain ⟨k, hk, hempty⟩ := htiles.exists_continues ht hmem hstop rfl hc
      exact ⟨k, c, hk, hglued, hempty, hvars⟩
    · rintro ⟨k, c, hk, hglued, hempty, -⟩
      exact ⟨c, htiles.head_of_continues ht hmem rfl hk hempty, hglued⟩
  | cons y nested =>
    have hy := hvariables y List.mem_cons_self
    refine iff_of_false ?_ ?_
    · rintro ⟨c, hc, -⟩
      cases y <;> first | cases hc | cases hy
    · rintro ⟨k, c, -, -, -, hvars⟩
      cases hlast.2 hvars

/--
There is a finding at the expansion of a root variable if a path component goes on behind it, but for
a single-quoted text with nothing in it that comes between, or a variable in the operand. There is
none if another character goes on, or nothing.
-/
theorem missingSlash_located_iff (ht : t.WellFormed) (hcmd : cmd ∈ t.root.preorder)
    (ha : a ∈ commandArgs cmd) (hplaced : (above, n) ∈ a.placed [])
    (habove : ∀ i ∈ above, ¬isExpansion i.kind ∧ ¬isSubstitution i.kind)
    (he : isExpansion n.kind) (hroot : variableName t n.children ∈ rootVariables)
    (hpercent : '%' ∉ t.chars n.info) :
    ((∃ f ∈ Detector.missingSlash.inspect ⟨t, eapi⟩ cmd, f.At n.info) ↔
        ∃ k c, a.Continues t n.info.stop k c ∧ isGlued c ∧ ¬a.HasEmptyQuotes n.info.stop k ∧
          ¬n.HasOperandVariables) ∧
      (∀ k c, a.Continues t n.info.stop k c → ¬isGlued c →
        ¬∃ f ∈ Detector.missingSlash.inspect ⟨t, eapi⟩ cmd, f.At n.info) ∧
      ((∀ k, n.info.stop ≤ k → k < a.info.stop → a.Quotes k) →
        ¬∃ f ∈ Detector.missingSlash.inspect ⟨t, eapi⟩ cmd, f.At n.info) := by
  have hexposed := ht.mem_exposed (mem_preorder_of_commandArgs hcmd ha) hplaced habove he
  have hiff : (∃ f ∈ Detector.missingSlash.inspect ⟨t, eapi⟩ cmd, f.At n.info) ↔ _ :=
    exists_at_iff ht hcmd ha hexposed he hroot hpercent
  refine ⟨hiff, fun k c hk hglued hfound => ?_, fun hquotes hfound => ?_⟩
  · obtain ⟨k', c', hk', hglued', -⟩ := hiff.1 hfound
    rw [(hk.unique hk').2] at hglued
    exact hglued hglued'
  · obtain ⟨k, c, hk, -⟩ := hiff.1 hfound
    exact hk.text.2.1 (hquotes k hk.start_le hk.text.1.2)

def installRoot : Node :=
  .inLine true "simple_expansion" 3 5
    [.inLine false "$" 3 4 [], .inLine true "variable_name" 4 5 []]

def removedPath (between : Node) : Node :=
  .inLine true "concatenation" 3 10 [installRoot, between, .inLine true "word" 7 10 []]

def removal (between : Node) : Node :=
  .inLine true "command" 0 10
    [.inLine true "command_name" 0 2 [.inLine true "word" 0 2 []], removedPath between]

/-- The script `rm $D""usr`, or with other quotes of one character. -/
def removalScript (quote : Char) (between : Node) : Tree where
  source := "rm $D".toList ++ quote :: quote :: "usr".toList
  root := .inLine true "program" 0 10 [removal between]

def emptyString : Node :=
  .inLine true "string" 5 7 [.inLine false "\"" 5 6 [], .inLine false "\"" 6 7 []]

def emptyRawString : Node :=
  .inLine true "raw_string" 5 7 []

theorem commandArgs_removal (between : Node) :
    commandArgs (removal between) = [removedPath between] := by
  have hending : endsWith "redirect" "concatenation" = false := by decide
  simp [commandArgs, removal, removedPath, Node.namedChildren, Node.inLine, Node.children,
    List.filter_cons, hending]

theorem exists_placed_installRoot (between : Node) :
    ∃ above, (above, installRoot) ∈ (removedPath between).placed [] ∧
      ∀ i ∈ above, ¬isExpansion i.kind ∧ ¬isSubstitution i.kind := by
  refine ⟨[(removedPath between).info], Node.mem_placed_node.2 (.inr ⟨installRoot, List.mem_cons_self,
    [], Node.mem_placed_node.2 (.inl ⟨rfl, rfl⟩), rfl⟩), ?_⟩
  rw [List.forall_mem_singleton]
  change ¬isExpansion "concatenation" ∧ ¬isSubstitution "concatenation"
  decide

theorem missingSlash_located_iff_emptyString :
    (removalScript '"' emptyString).WellFormed ∧
      ∃ f ∈ Detector.missingSlash.inspect ⟨removalScript '"' emptyString, some 8⟩
        (removal emptyString), f.At installRoot.info := by
  have h : (removalScript '"' emptyString).WellFormed :=
    ⟨by decide, by decide, by decide, by decide, by decide⟩
  have harg : removedPath emptyString ∈ commandArgs (removal emptyString) := by
    rw [commandArgs_removal]
    exact List.mem_singleton.2 rfl
  obtain ⟨above, hplaced, habove⟩ := exists_placed_installRoot emptyString
  have hcontinues : (removedPath emptyString).Continues (removalScript '"' emptyString) 5 7 'u' := by
    decide
  have hempty : ¬(removedPath emptyString).HasEmptyQuotes 5 7 := by decide
  have hroot : variableName (removalScript '"' emptyString) installRoot.children ∈ rootVariables := by
    decide
  have hpercent : '%' ∉ (removalScript '"' emptyString).chars installRoot.info := by decide
  exact ⟨h, (missingSlash_located_iff h (Node.mem_preorder_of_child List.mem_cons_self) harg hplaced
    habove rfl hroot hpercent).1.2 ⟨7, 'u', hcontinues, by decide +kernel, hempty, by decide +kernel⟩⟩

/-- Nothing is found if the quotes are single ones, though the same text goes on behind them. -/
theorem not_missingSlash_located_emptyRawString :
    (removalScript '\'' emptyRawString).WellFormed ∧
      (variableName (removalScript '\'' emptyRawString) installRoot.children ∈ rootVariables ∧
        '%' ∉ (removalScript '\'' emptyRawString).chars installRoot.info) ∧
      ((removedPath emptyRawString).Continues (removalScript '\'' emptyRawString)
        installRoot.info.stop 7 'u' ∧ isGlued 'u') ∧
      Detector.missingSlash.inspect ⟨removalScript '\'' emptyRawString, some 8⟩
        (removal emptyRawString) = [] := by
  have h : (removalScript '\'' emptyRawString).WellFormed :=
    ⟨by decide, by decide, by decide, by decide, by decide⟩
  exact ⟨h, by decide +kernel, by decide +kernel, by decide +kernel⟩

end EbuildAudit.Shell
