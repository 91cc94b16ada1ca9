import EbuildAudit.Proofs.Shell.Tree
import EbuildAudit.Shell.Word

/-!
The variables of a word. Every expansion outside of substitutions is a variable of the word, in the
order in which the nodes come, and it is quoted if there is a double-quoted text above it. This asks
for expansions that stand where a parser puts them, between the quotes of what is double-quoted and
in nothing that is single-quoted.
-/

namespace EbuildAudit.Shell

open Text

/-! ## Kinds of nodes -/

def openingMark (kind : String) : List Char :=
  if kind = "string" then ['"']
  else if kind = "translated_string" then ['$', '"']
  else if kind = "raw_string" then ['\'']
  else if kind = "ansi_c_string" then ['$', '\'']
  else []

def closingMark (kind : String) : List Char :=
  if isDoubleQuoted kind then ['"'] else if isSingleQuoted kind then ['\''] else []

namespace NodeInfo

def innerStart (i : NodeInfo) : Nat :=
  i.start + byteLength (openingMark i.kind)

def innerStop (i : NodeInfo) : Nat :=
  i.stop - byteLength (closingMark i.kind)

def Delimits (i : NodeInfo) (k : Nat) : Prop :=
  (i.start ≤ k ∧ k < i.innerStart) ∨ (i.innerStop ≤ k ∧ k < i.stop)

instance (i : NodeInfo) (k : Nat) : Decidable (i.Delimits k) :=
  inferInstanceAs (Decidable (_ ∨ _))

end NodeInfo

section

variable {kind : String}

theorem of_isSingleQuoted (h : isSingleQuoted kind) :
    isDoubleQuoted kind = false ∧ isExpansion kind = false ∧ isSubstitution kind = false := by
  have hkind : kind = "raw_string" ∨ kind = "ansi_c_string" := by simpa [isSingleQuoted] using h
  rcases hkind with rfl | rfl <;> decide

theorem of_isExpansion (h : isExpansion kind) :
    isDoubleQuoted kind = false ∧ isSingleQuoted kind = false ∧ isSubstitution kind = false := by
  have hkind : kind = "simple_expansion" ∨ kind = "expansion" := by simpa [isExpansion] using h
  rcases hkind with rfl | rfl <;> decide

theorem of_isSubstitution (h : isSubstitution kind) :
    isDoubleQuoted kind = false ∧ isSingleQuoted kind = false ∧ isExpansion kind = false := by
  have hkind : kind = "command_substitution" ∨ kind = "process_substitution" ∨
      kind = "arithmetic_expansion" := by
    simpa [isSubstitution, or_assoc] using h
  rcases hkind with rfl | rfl | rfl <;> decide

theorem inner_of_isDoubleQuoted {i : NodeInfo} (h : isDoubleQuoted i.kind) :
    i.innerStart = i.start + openingLength i.kind ∧ i.innerStop = i.stop - 1 := by
  have hkind : i.kind = "string" ∨ i.kind = "translated_string" := by simpa [isDoubleQuoted] using h
  rw [NodeInfo.innerStart, NodeInfo.innerStop]
  rcases hkind with hkind | hkind <;> rw [hkind] <;> exact ⟨rfl, rfl⟩

end

/-! ## Expansions and where they stand -/

/--
Expansions are not empty. None of them covers a byte of the quotes around a double-quoted text that
it is in, and none is in a simple expansion or in a single-quoted text.
-/
structure Node.ProperExpansions (n : Node) : Prop where
  nonempty : isExpansion n.kind → n.info.start < n.info.stop
  between : isDoubleQuoted n.kind → ∀ m ∈ preorderAll n.children, isExpansion m.kind →
    ∀ k < m.info.stop, m.info.start ≤ k → ¬n.info.Delimits k
  absent : n.kind = "simple_expansion" ∨ isSingleQuoted n.kind →
    ∀ m ∈ preorderAll n.children, ¬isExpansion m.kind

instance (n : Node) : Decidable n.ProperExpansions :=
  decidable_of_iff
    ((isExpansion n.kind → n.info.start < n.info.stop) ∧
      (isDoubleQuoted n.kind → ∀ m ∈ Node.preorderAll n.children, isExpansion m.kind →
        ∀ k < m.info.stop, m.info.start ≤ k → ¬n.info.Delimits k) ∧
      (n.kind = "simple_expansion" ∨ isSingleQuoted n.kind →
        ∀ m ∈ Node.preorderAll n.children, ¬isExpansion m.kind))
    ⟨fun ⟨h₁, h₂, h₃⟩ => ⟨h₁, h₂, h₃⟩, fun ⟨h₁, h₂, h₃⟩ => ⟨h₁, h₂, h₃⟩⟩

def Piece.isVariable : Piece → Bool
  | .var .. => true
  | _ => false

/-- An expansion with no substitution above it; the first component is what is above it. -/
def isVisible (place : List NodeInfo × Node) : Bool :=
  isExpansion place.2.kind && !(place.2.info :: place.1).any (isSubstitution ·.kind)

def placedVariable (t : Tree) (place : List NodeInfo × Node) : Piece :=
  variablePiece t (place.1.any (isDoubleQuoted ·.kind)) place.2.info place.2.children

def Node.placedVariables (t : Tree) (above : List NodeInfo) (n : Node) : List Piece :=
  ((n.placed above).filter isVisible).map (placedVariable t)

variable {t : Tree} {i : NodeInfo} {cs : List Node} {a c m n : Node} {above : List NodeInfo}
  {quoted : Bool} {start stop position : Nat}

namespace Node

theorem placedVariables_node : (node i cs).placedVariables t above =
    (if isVisible (above, node i cs) then [placedVariable t (above, node i cs)] else []) ++
      cs.flatMap (placedVariables t (i :: above)) := by
  rw [placedVariables, placed_node, List.filter_cons, List.filter_flatMap]
  split <;> simp only [List.map_cons, List.map_flatMap, List.nil_append, List.cons_append] <;> rfl

theorem placedVariables_of_not (he : ¬isExpansion i.kind) :
    (node i cs).placedVariables t above = cs.flatMap (placedVariables t (i :: above)) := by
  have hhidden : ¬isVisible (above, node i cs) := by simp [isVisible, he]
  rw [placedVariables_node, if_neg hhidden, List.nil_append]

theorem placedVariables_of_substitution (h : above.any (isSubstitution ·.kind)) :
    n.placedVariables t above = [] := by
  rw [placedVariables, List.map_eq_nil_iff, List.filter_eq_nil_iff, placed_eq_map]
  intro place hplace
  obtain ⟨inner, -, rfl⟩ := List.mem_map.1 hplace
  simp [isVisible, h]

theorem placedVariables_of_absent (h : ∀ m ∈ n.preorder, ¬isExpansion m.kind) :
    n.placedVariables t above = [] := by
  rw [placedVariables, List.map_eq_nil_iff, List.filter_eq_nil_iff]
  rintro ⟨up, m⟩ hplace
  simp [isVisible, h m (mem_preorder_of_placed hplace)]

/-! ## The variables in operands -/

theorem nestedVariablesOf_eq_flatMap :
    nestedVariablesOf t quoted cs = cs.flatMap (nestedVariables t quoted) := by
  induction cs with
  | nil => rfl
  | cons c cs ih => rw [nestedVariablesOf, ih, List.flatMap_cons]

theorem nestedVariables_of_absent (h : ∀ m ∈ n.preorder, ¬isExpansion m.kind) :
    n.nestedVariables t quoted = [] := by
  induction n generalizing quoted with
  | node i cs ih =>
    obtain ⟨hself, hbelow⟩ := forall_mem_preorder_node.1 h
    rw [kind_node] at hself
    rw [nestedVariables, if_neg hself]
    split
    · rfl
    · rw [nestedVariablesOf_eq_flatMap, List.flatMap_eq_nil_iff]
      exact fun c hc => ih c hc (hbelow c hc)

/-! ## The pieces of a node of each kind -/

theorem pieces_of_isDoubleQuoted (h : isDoubleQuoted i.kind) :
    (node i cs).pieces t quoted =
      piecesBetween t true i (min (i.start + openingLength i.kind) i.stop)
        (max (i.stop - 1) (min (i.start + openingLength i.kind) i.stop))
        (min (i.start + openingLength i.kind) i.stop) cs := by
  rw [pieces.eq_def]
  exact if_pos h

theorem pieces_of_isSingleQuoted (h : isSingleQuoted i.kind) :
    (node i cs).pieces t quoted = [.text (betweenQuotes (t.chars i)) true i] := by
  obtain ⟨hd, -, -⟩ := of_isSingleQuoted h
  simp only [pieces.eq_def, hd, h, Bool.false_eq_true, if_false, if_true]

theorem pieces_of_isExpansion (h : isExpansion i.kind) :
    (node i cs).pieces t quoted = (node i cs).nestedVariables t quoted := by
  obtain ⟨hd, hs, -⟩ := of_isExpansion h
  simp only [pieces.eq_def, nestedVariables, hd, hs, h, Bool.false_eq_true, if_false, if_true]

theorem pieces_eq_nestedVariables (h : isExpansion n.kind) :
    n.pieces t quoted = n.nestedVariables t quoted := by
  cases n
  exact pieces_of_isExpansion h

theorem pieces_of_isSubstitution (h : isSubstitution i.kind) :
    (node i cs).pieces t quoted = [.substitution quoted] := by
  obtain ⟨hd, hs, he⟩ := of_isSubstitution h
  simp only [pieces.eq_def, hd, hs, he, h, Bool.false_eq_true, if_false, if_true]

theorem pieces_of_plain (hd : ¬isDoubleQuoted i.kind) (hs : ¬isSingleQuoted i.kind)
    (he : ¬isExpansion i.kind) (hb : ¬isSubstitution i.kind) :
    (node i cs).pieces t quoted = if cs.isEmpty then [.text (t.chars i) quoted i]
      else piecesBetween t quoted i i.start i.stop i.start cs := by
  simp only [pieces.eq_def, hd, hs, he, hb]
  cases cs <;> rfl

/-! ## Variables -/

theorem of_mem_nestedVariables {x : Piece} (h : x ∈ n.nestedVariables t quoted) :
    ∃ m ∈ n.preorder, isExpansion m.kind ∧
      ∃ quoted, x = variablePiece t quoted m.info m.children := by
  induction n generalizing quoted with
  | node i cs ih =>
    have hbelow {quoted : Bool} (hx : x ∈ nestedVariablesOf t quoted cs) :
        ∃ m ∈ (node i cs).preorder, isExpansion m.kind ∧
          ∃ quoted, x = variablePiece t quoted m.info m.children := by
      rw [nestedVariablesOf_eq_flatMap] at hx
      obtain ⟨c, hc, hx⟩ := List.mem_flatMap.1 hx
      obtain ⟨m, hm, hfound⟩ := ih c hc hx
      exact ⟨m, mem_preorder_node.2 (.inr ⟨c, hc, hm⟩), hfound⟩
    rw [nestedVariables] at h
    split at h
    case isTrue he =>
      rcases List.mem_cons.1 h with rfl | h
      · exact ⟨node i cs, mem_preorder_self _, he, quoted, rfl⟩
      · split at h
        · exact hbelow h
        · cases h
    case isFalse =>
      split at h
      · cases h
      · exact hbelow h

theorem exists_nested (h : isExpansion n.kind) :
    ∃ nested, n.nestedVariables t quoted = variablePiece t quoted n.info n.children :: nested ∧
      ∀ x ∈ nested, ∃ m ∈ preorderAll n.children, isExpansion m.kind ∧
        ∃ quoted, x = variablePiece t quoted m.info m.children := by
  obtain ⟨i, cs⟩ := n
  rw [kind_node] at h
  refine ⟨_, by rw [nestedVariables, if_pos h]; rfl, fun x hx => ?_⟩
  split at hx
  · rw [nestedVariablesOf_eq_flatMap] at hx
    obtain ⟨c, hc, hx⟩ := List.mem_flatMap.1 hx
    obtain ⟨m, hm, hfound⟩ := of_mem_nestedVariables hx
    exact ⟨m, mem_preorderAll.2 ⟨c, hc, hm⟩, hfound⟩
  · cases hx

theorem isVariable_of_mem_nestedVariables {x : Piece} (h : x ∈ n.nestedVariables t quoted) :
    x.isVariable := by
  obtain ⟨m, -, -, quoted, rfl⟩ := of_mem_nestedVariables h
  rfl

theorem filter_gap : (gap t quoted i start stop).filter Piece.isVariable = [] := by
  rw [gap]
  split
  · split <;> rfl
  · rfl

theorem absent_of_not (hself : ¬isExpansion i.kind) (h : ∀ m ∈ preorderAll cs, ¬isExpansion m.kind) :
    ∀ m ∈ (node i cs).preorder, ¬isExpansion m.kind :=
  List.forall_mem_cons.2 ⟨hself, h⟩

theorem nestedVariables_eq (hn : ∀ m ∈ n.preorder, m.ProperExpansions)
    (habove : above.any (isSubstitution ·.kind) = false) :
    n.nestedVariables t (above.any (isDoubleQuoted ·.kind)) = n.placedVariables t above := by
  induction n generalizing above with
  | node i cs ih =>
    obtain ⟨hself, hbelow⟩ := forall_mem_preorder_node.1 hn
    have hchildren (hb : isSubstitution i.kind = false) :
        nestedVariablesOf t ((i :: above).any (isDoubleQuoted ·.kind)) cs =
          cs.flatMap (placedVariables t (i :: above)) := by
      rw [nestedVariablesOf_eq_flatMap]
      exact List.flatMap_congr fun c hc => ih c hc (hbelow c hc) (by simp [hb, habove])
    by_cases he : isExpansion i.kind
    · obtain ⟨hd, -, hb⟩ := of_isExpansion he
      have hvisible : isVisible (above, node i cs) := by simp [isVisible, he, hb, habove]
      rw [nestedVariables, if_pos he, placedVariables_node, if_pos hvisible, List.singleton_append]
      refine congrArg _ ?_
      by_cases hkind : i.kind = "expansion"
      · rw [if_pos hkind, ← hchildren hb, List.any_cons, hd, Bool.false_or]
      · -- A simple expansion is not looked into, and there is nothing to be found in it.
        have hsimple : i.kind = "simple_expansion" := by simpa [isExpansion, hkind] using he
        rw [if_neg hkind, eq_comm, List.flatMap_eq_nil_iff]
        exact fun c hc => placedVariables_of_absent fun m hm =>
          hself.absent (.inl hsimple) m (mem_preorderAll.2 ⟨c, hc, hm⟩)
    · by_cases hb : isSubstitution i.kind
      · rw [nestedVariables, if_neg he, if_pos hb, placedVariables_of_not he, eq_comm,
          List.flatMap_eq_nil_iff]
        exact fun c hc => placedVariables_of_substitution (by simp [hb])
      · by_cases hs : isSingleQuoted i.kind
        · have habsent : ∀ m ∈ (node i cs).preorder, ¬isExpansion m.kind :=
            absent_of_not he (hself.absent (.inr hs))
          rw [nestedVariables_of_absent habsent, placedVariables_of_absent habsent]
        · rw [nestedVariables, if_neg he, if_neg hb, placedVariables_of_not he,
            ← hchildren (by simpa using hb), List.any_cons, Bool.eq_false_iff.2 hs, Bool.or_false,
            Bool.or_comm]

theorem filter_piecesBetween {source : List Char}
    (horderly : ∀ c ∈ cs, ∀ m ∈ c.preorder, m.Orderly source)
    (hwithin : ∀ c ∈ cs, ∀ m ∈ c.preorder, isExpansion m.kind →
      m.info.start < m.info.stop ∧ start ≤ m.info.start ∧ m.info.stop ≤ stop)
    (hpieces : ∀ c ∈ cs, (c.pieces t quoted).filter Piece.isVariable = c.placedVariables t above) :
    (piecesBetween t quoted i start stop position cs).filter Piece.isVariable =
      cs.flatMap (placedVariables t above) := by
  induction cs generalizing position with
  | nil => rw [piecesBetween, filter_gap, List.flatMap_nil]
  | cons c cs ih =>
    rw [List.forall_mem_cons] at horderly hwithin hpieces
    rw [piecesBetween, List.flatMap_cons]
    split
    case isTrue hskipped =>
      have hout : c.info.stop ≤ start ∨ stop ≤ c.info.start := by simpa using hskipped
      have habsent : ∀ m ∈ c.preorder, ¬isExpansion m.kind := by
        intro m hm he
        obtain ⟨hstart, hstop⟩ := Orderly.within horderly.1 hm
        obtain ⟨hpos, hlow, hhigh⟩ := hwithin.1 m hm he
        omega
      rw [ih horderly.2 hwithin.2 hpieces.2, placedVariables_of_absent habsent, List.nil_append]
    case isFalse =>
      rw [List.filter_append, List.filter_append, filter_gap, hpieces.1,
        ih horderly.2 hwithin.2 hpieces.2, List.nil_append]

theorem ProperExpansions.within_marks {source : List Char}
    (hself : (node i cs).ProperExpansions) (hd : isDoubleQuoted i.kind)
    (horderly : ∀ m ∈ (node i cs).preorder, m.Orderly source) (hc : c ∈ cs) (hm : m ∈ c.preorder)
    (hproper : m.ProperExpansions) (he : isExpansion m.kind) :
    m.info.start < m.info.stop ∧ i.start + openingLength i.kind ≤ m.info.start ∧
      m.info.stop < i.stop := by
  obtain ⟨hopening, hclosing⟩ := inner_of_isDoubleQuoted hd
  obtain ⟨hstart, hstop⟩ := Orderly.within horderly (mem_preorder_node.2 (.inr ⟨c, hc, hm⟩))
  have hpos := hproper.nonempty he
  have hbetween := hself.between hd m (mem_preorderAll.2 ⟨c, hc, hm⟩) he
  have hfirst := hbetween m.info.start hpos (Nat.le_refl _)
  have hlast := hbetween (m.info.stop - 1) (by omega) (by omega)
  simp only [NodeInfo.Delimits, info_node, hopening, hclosing] at hfirst hlast hstart hstop
  omega

theorem filter_pieces_eq {source : List Char} (horderly : ∀ m ∈ n.preorder, m.Orderly source)
    (hn : ∀ m ∈ n.preorder, m.ProperExpansions)
    (habove : above.any (isSubstitution ·.kind) = false) :
    (n.pieces t (above.any (isDoubleQuoted ·.kind))).filter Piece.isVariable =
      n.placedVariables t above := by
  induction n generalizing above with
  | node i cs ih =>
    obtain ⟨hself, hbelow⟩ := forall_mem_preorder_node.1 hn
    obtain ⟨hordered, horderly'⟩ := forall_mem_preorder_node.1 horderly
    by_cases he : isExpansion i.kind
    · rw [pieces_of_isExpansion he, List.filter_eq_self.2 fun _ => isVariable_of_mem_nestedVariables,
        nestedVariables_eq hn habove]
    · by_cases hb : isSubstitution i.kind
      · rw [pieces_of_isSubstitution hb, placedVariables_of_not he, eq_comm]
        exact List.flatMap_eq_nil_iff.2 fun c hc => placedVariables_of_substitution (by simp [hb])
      · have hchildren : ∀ c ∈ cs,
            (c.pieces t ((i :: above).any (isDoubleQuoted ·.kind))).filter Piece.isVariable =
              c.placedVariables t (i :: above) :=
          fun c hc => ih c hc (horderly' c hc) (hbelow c hc) (by simp [hb, habove])
        by_cases hs : isSingleQuoted i.kind
        · have habsent : ∀ m ∈ (node i cs).preorder, ¬isExpansion m.kind :=
            absent_of_not he (hself.absent (.inr hs))
          rw [pieces_of_isSingleQuoted hs, placedVariables_of_absent habsent]
          rfl
        · by_cases hd : isDoubleQuoted i.kind
          · rw [List.any_cons, hd, Bool.true_or] at hchildren
            rw [pieces_of_isDoubleQuoted hd, placedVariables_of_not he]
            refine filter_piecesBetween horderly' (fun c hc m hm he => ?_) hchildren
            have := hself.within_marks hd horderly hc hm (hbelow c hc m hm) he
            omega
          · rw [List.any_cons, Bool.eq_false_iff.2 hd, Bool.false_or] at hchildren
            rw [pieces_of_plain hd hs he hb, placedVariables_of_not he]
            split
            case isTrue hempty =>
              rw [List.isEmpty_iff.1 hempty]
              rfl
            case isFalse =>
              refine filter_piecesBetween horderly' (fun c hc m hm he => ?_) hchildren
              obtain ⟨hstart, hstop⟩ := hordered.inside c hc
              obtain ⟨hstart', hstop'⟩ := Orderly.within (horderly' c hc) hm
              have hpos := (hbelow c hc m hm).nonempty he
              rw [info_node] at hstart hstop
              omega

end Node

/--
The variables of a word are the expansions in it that have no substitution at or above them, in
pre-order, each with its name and its text; and each is quoted exactly if something double-quoted is
above it in the word.
-/
theorem flatten_variables
    (h : ∀ n ∈ t.root.preorder, n.Orderly t.source ∧ n.ProperExpansions)
    (ha : a ∈ t.root.preorder) :
    (flatten t a).filter Piece.isVariable =
        ((a.placed []).filter isVisible).map (placedVariable t) ∧
      (a.placed []).map (·.2) = a.preorder := by
  have hbelow : ∀ m ∈ a.preorder, m.Orderly t.source ∧ m.ProperExpansions :=
    fun m hm => h m (Node.mem_preorder_trans ha hm)
  have houtside : ([] : List NodeInfo).any (isSubstitution ·.kind) = false := rfl
  exact ⟨Node.filter_pieces_eq (fun m hm => (hbelow m hm).1) (fun m hm => (hbelow m hm).2) houtside,
    a.map_snd_placed []⟩

def Node.inLine (named : Bool) (kind : String) (start stop : Nat) (children : List Node) : Node :=
  .node ⟨kind, none, named, start, stop, 1, start + 1⟩ children

/-- The word `"${F:-$T}"$U$($V)'*'`. -/
def quotedWord : Tree where
  source := "\"$\x7bF:-$T\x7d\"$U$($V)'*'".toList
  root := .inLine true "concatenation" 0 20
    [.inLine true "string" 0 10
      [.inLine false "\"" 0 1 [],
        .inLine true "expansion" 1 9
          [.inLine false "$\x7b" 1 3 [],
            .inLine true "variable_name" 3 4 [],
            .inLine false ":-" 4 6 [],
            .inLine true "simple_expansion" 6 8
              [.inLine false "$" 6 7 [], .inLine true "variable_name" 7 8 []],
            .inLine false "\x7d" 8 9 []],
        .inLine false "\"" 9 10 []],
      .inLine true "simple_expansion" 10 12
        [.inLine false "$" 10 11 [], .inLine true "variable_name" 11 12 []],
      .inLine true "command_substitution" 12 17
        [.inLine false "$(" 12 14 [],
          .inLine true "command" 14 16
            [.inLine true "command_name" 14 16
              [.inLine true "simple_expansion" 14 16
                [.inLine false "$" 14 15 [], .inLine true "variable_name" 15 16 []]]],
          .inLine false ")" 16 17 []],
      .inLine true "raw_string" 17 20 []]

theorem flatten_variables_quotedWord :
    (∀ n ∈ quotedWord.root.preorder, n.Orderly quotedWord.source ∧ n.ProperExpansions) ∧
      (flatten quotedWord quotedWord.root).filter Piece.isVariable =
        [.var "F" "$\x7bF:-$T\x7d".toList true ⟨"expansion", none, true, 1, 9, 1, 2⟩,
          .var "T" "$T".toList true ⟨"simple_expansion", none, true, 6, 8, 1, 7⟩,
          .var "U" "$U".toList false ⟨"simple_expansion", none, true, 10, 12, 1, 11⟩] := by
  have h : ∀ n ∈ quotedWord.root.preorder,
      n.Orderly quotedWord.source ∧ n.ProperExpansions := by
    decide +kernel
  exact ⟨h, (flatten_variables h (Node.mem_preorder_self _)).1.trans (by decide +kernel)⟩

end EbuildAudit.Shell
