import EbuildAudit.Proofs.Text.Bytes
import EbuildAudit.Shell.Tree
import Mathlib.Data.List.Basic

namespace EbuildAudit.Shell

open Text

namespace NodeInfo

def Covers (i : NodeInfo) (k : Nat) : Prop :=
  i.start ≤ k ∧ k < i.stop

instance (i : NodeInfo) (k : Nat) : Decidable (i.Covers k) :=
  inferInstanceAs (Decidable (_ ∧ _))

end NodeInfo

namespace Node

mutual

/-- The nodes of a tree in pre-order, each with what is above it, the nearest first. -/
def placed (above : List NodeInfo) : Node → List (List NodeInfo × Node)
  | .node i cs => (above, .node i cs) :: placedAll (i :: above) cs

def placedAll (above : List NodeInfo) : List Node → List (List NodeInfo × Node)
  | [] => []
  | n :: ns => n.placed above ++ placedAll above ns

end

/-- A node lies between characters, and its children lie in it, one after another. -/
structure Orderly (source : List Char) (n : Node) : Prop where
  start_le_stop : n.info.start ≤ n.info.stop
  start : IsBoundary source n.info.start
  stop : IsBoundary source n.info.stop
  inside : ∀ c ∈ n.children, n.info.start ≤ c.info.start ∧ c.info.stop ≤ n.info.stop
  ordered : n.children.Pairwise fun c d => c.info.stop ≤ d.info.start

instance (source : List Char) (n : Node) : Decidable (n.Orderly source) :=
  decidable_of_iff
    (n.info.start ≤ n.info.stop ∧ IsBoundary source n.info.start ∧ IsBoundary source n.info.stop ∧
      (∀ c ∈ n.children, n.info.start ≤ c.info.start ∧ c.info.stop ≤ n.info.stop) ∧
      n.children.Pairwise fun c d => c.info.stop ≤ d.info.start)
    ⟨fun ⟨h₁, h₂, h₃, h₄, h₅⟩ => ⟨h₁, h₂, h₃, h₄, h₅⟩,
      fun ⟨h₁, h₂, h₃, h₄, h₅⟩ => ⟨h₁, h₂, h₃, h₄, h₅⟩⟩

variable {i : NodeInfo} {cs : List Node} {a m n : Node} {above up : List NodeInfo}
  {source : List Char} {p : Node → Prop}

@[simp]
theorem info_node : (node i cs).info = i :=
  rfl

@[simp]
theorem kind_node : (node i cs).kind = i.kind :=
  rfl

@[elab_as_elim, induction_eliminator]
theorem induction {motive : Node → Prop}
    (node : ∀ i cs, (∀ c ∈ cs, motive c) → motive (.node i cs)) (n : Node) : motive n :=
  @Node.rec motive (fun cs => ∀ c ∈ cs, motive c) node nofun
    (fun _ _ hn hns => List.forall_mem_cons.2 ⟨hn, hns⟩) n

theorem preorderAll_eq_flatMap (cs : List Node) : preorderAll cs = cs.flatMap preorder := by
  induction cs with
  | nil => rfl
  | cons c cs ih => rw [preorderAll, ih, List.flatMap_cons]

theorem mem_preorderAll : m ∈ preorderAll cs ↔ ∃ c ∈ cs, m ∈ c.preorder := by
  rw [preorderAll_eq_flatMap, List.mem_flatMap]

theorem mem_preorder_node :
    m ∈ (node i cs).preorder ↔ m = .node i cs ∨ ∃ c ∈ cs, m ∈ c.preorder := by
  rw [preorder, List.mem_cons, mem_preorderAll]

theorem mem_preorder_self (n : Node) : n ∈ n.preorder := by
  cases n
  exact mem_preorder_node.2 (.inl rfl)

theorem forall_mem_preorder_node :
    (∀ m ∈ (node i cs).preorder, p m) ↔ p (.node i cs) ∧ ∀ c ∈ cs, ∀ m ∈ c.preorder, p m := by
  simp only [preorder, List.forall_mem_cons, mem_preorderAll]
  exact and_congr_right fun _ =>
    ⟨fun h c hc m hm => h m ⟨c, hc, hm⟩, fun h m ⟨c, hc, hm⟩ => h c hc m hm⟩

theorem mem_preorder_trans (ha : a ∈ n.preorder) (hm : m ∈ a.preorder) : m ∈ n.preorder := by
  induction n with
  | node i cs ih =>
    rcases mem_preorder_node.1 ha with rfl | ⟨c, hc, hmem⟩
    · exact hm
    · exact mem_preorder_node.2 (.inr ⟨c, hc, ih c hc hmem⟩)

theorem mem_preorder_of_child (h : m ∈ n.children) : m ∈ n.preorder := by
  cases n
  exact mem_preorder_node.2 (.inr ⟨m, h, mem_preorder_self m⟩)

theorem placedAll_eq_flatMap (above : List NodeInfo) (cs : List Node) :
    placedAll above cs = cs.flatMap (placed above) := by
  induction cs with
  | nil => rfl
  | cons c cs ih => rw [placedAll, ih, List.flatMap_cons]

theorem placed_node (above : List NodeInfo) (i : NodeInfo) (cs : List Node) :
    (node i cs).placed above = (above, .node i cs) :: cs.flatMap (placed (i :: above)) := by
  rw [placed, placedAll_eq_flatMap]

theorem map_snd_placed (n : Node) (above : List NodeInfo) :
    (n.placed above).map (·.2) = n.preorder := by
  induction n generalizing above with
  | node i cs ih =>
    rw [placed_node, preorder, preorderAll_eq_flatMap, List.map_cons, List.map_flatMap]
    exact congrArg _ (List.flatMap_congr fun c hc => ih c hc (i :: above))

theorem mem_preorder_of_placed (h : (up, m) ∈ n.placed above) : m ∈ n.preorder := by
  rw [← map_snd_placed n above]
  exact List.mem_map_of_mem h

theorem placed_eq_map (n : Node) (above : List NodeInfo) :
    n.placed above = (n.placed []).map fun place => (place.1 ++ above, place.2) := by
  induction n generalizing above with
  | node i cs ih =>
    rw [placed_node, placed_node, List.map_cons, List.map_flatMap]
    refine congrArg _ (List.flatMap_congr fun c hc => ?_)
    rw [ih c hc (i :: above), ih c hc [i], List.map_map]
    exact List.map_congr_left fun place _ => by simp

theorem mem_placed_node :
    (up, m) ∈ (node i cs).placed [] ↔ (up = [] ∧ m = .node i cs) ∨
      ∃ c ∈ cs, ∃ inner, (inner, m) ∈ c.placed [] ∧ up = inner ++ [i] := by
  rw [placed_node, List.mem_cons, Prod.mk.injEq, List.mem_flatMap]
  refine or_congr_right (exists_congr fun c => and_congr_right fun _ => ?_)
  rw [placed_eq_map, List.mem_map]
  constructor
  · rintro ⟨⟨inner, m⟩, hmem, heq⟩
    cases heq
    exact ⟨inner, hmem, rfl⟩
  · rintro ⟨inner, hmem, rfl⟩
    exact ⟨(inner, m), hmem, rfl⟩

theorem exists_above {i : NodeInfo} (h : (up, m) ∈ n.placed []) (hi : i ∈ up) :
    ∃ a ∈ n.preorder, a.info = i ∧ m ∈ preorderAll a.children := by
  induction n generalizing up with
  | node j cs ih =>
    rcases mem_placed_node.1 h with ⟨rfl, -⟩ | ⟨c, hc, inner, hplaced, rfl⟩
    · cases hi
    · rcases List.mem_append.1 hi with hi | hi
      · obtain ⟨a, ha, hfound⟩ := ih c hc hplaced hi
        exact ⟨a, mem_preorder_node.2 (.inr ⟨c, hc, ha⟩), hfound⟩
      · obtain rfl := List.mem_singleton.1 hi
        exact ⟨_, mem_preorder_self _, rfl, mem_preorderAll.2 ⟨c, hc, mem_preorder_of_placed hplaced⟩⟩

theorem Orderly.within (h : ∀ m ∈ n.preorder, m.Orderly source) (hm : m ∈ n.preorder) :
    n.info.start ≤ m.info.start ∧ m.info.stop ≤ n.info.stop := by
  induction n with
  | node i cs ih =>
    rcases mem_preorder_node.1 hm with rfl | ⟨c, hc, hmem⟩
    · exact ⟨Nat.le_refl _, Nat.le_refl _⟩
    · obtain ⟨hself, hbelow⟩ := forall_mem_preorder_node.1 h
      obtain ⟨hstart, hstop⟩ := hself.inside c hc
      obtain ⟨hstart', hstop'⟩ := ih c hc (hbelow c hc) hmem
      exact ⟨Nat.le_trans hstart hstart', Nat.le_trans hstop' hstop⟩

theorem Orderly.eq_of_covers {c d : Node} {k : Nat} (h : n.Orderly source) (hc : c ∈ n.children)
    (hd : d ∈ n.children) (hck : c.info.Covers k) (hdk : d.info.Covers k) : c = d := by
  obtain ⟨front, back, heq⟩ := List.append_of_mem hc
  have hordered := h.ordered
  rw [heq, List.pairwise_append, List.pairwise_cons] at hordered
  rw [heq, List.mem_append, List.mem_cons] at hd
  rw [NodeInfo.Covers] at hck hdk
  rcases hd with hfront | rfl | hback
  · have := hordered.2.2 d hfront c List.mem_cons_self
    omega
  · rfl
  · have := hordered.2.1.1 d hback
    omega

end Node

end EbuildAudit.Shell
