import EbuildAudit.Proofs.Shell.Tree

namespace EbuildAudit.Shell.Node

def at? : List Nat → Node → Option Node
  | [], n => some n
  | k :: address, n => n.children[k]?.bind (at? address)

mutual

def addresses : Node → List (List Nat)
  | .node _ cs => [] :: addressesFrom 0 cs

def addressesFrom (k : Nat) : List Node → List (List Nat)
  | [] => []
  | c :: cs => c.addresses.map (k :: ·) ++ addressesFrom (k + 1) cs

end

/-- The nodes at all the addresses of a tree, in the order of the addresses and each of them once. -/
def Enumerates (root : Node) (visited : List Node) : Prop :=
  ∃ addresses : List (List Nat), addresses.Pairwise (· < ·) ∧
    (∀ address, address ∈ addresses ↔ (root.at? address).isSome) ∧
    visited.map some = addresses.map (root.at? ·)

variable {i : NodeInfo} {cs : List Node} {n : Node} {k : Nat} {address : List Nat}

theorem visit_eq (visited stack : List Node) :
    visit visited stack = visited.reverse ++ preorderAll stack := by
  fun_induction visit visited stack with
  | case1 => rw [preorderAll, List.append_nil]
  | case2 visited i cs stack ih =>
    rw [ih, preorderAll_append, preorderAll, preorder, List.reverse_cons, List.append_assoc]
    rfl

theorem descendants_eq_preorder (n : Node) : n.descendants = n.preorder := by
  rw [descendants, visit_eq, preorderAll, preorderAll, List.append_nil]
  rfl

theorem mem_addressesFrom : address ∈ addressesFrom k cs ↔
    ∃ j c rest, cs[j]? = some c ∧ rest ∈ c.addresses ∧ address = (k + j) :: rest := by
  induction cs generalizing k with
  | nil => simp [addressesFrom]
  | cons c cs ih =>
    rw [addressesFrom, List.mem_append, List.mem_map, ih]
    constructor
    · rintro (⟨rest, hrest, rfl⟩ | ⟨j, d, rest, hd, hrest, rfl⟩)
      · exact ⟨0, c, rest, rfl, hrest, rfl⟩
      · exact ⟨j + 1, d, rest, hd, hrest, by rw [Nat.add_right_comm, Nat.add_assoc]⟩
    · rintro ⟨j, d, rest, hd, hrest, rfl⟩
      cases j with
      | zero =>
        obtain rfl := Option.some.inj hd
        exact .inl ⟨rest, hrest, rfl⟩
      | succ j => exact .inr ⟨j, d, rest, hd, hrest, by rw [Nat.add_right_comm, Nat.add_assoc]⟩

theorem mem_addresses : address ∈ n.addresses ↔ (n.at? address).isSome := by
  induction n generalizing address with
  | node i cs ih =>
    cases address with
    | nil => simp [addresses, at?]
    | cons k rest =>
      have hbelow : k :: rest ∈ (node i cs).addresses ↔
          ∃ c, cs[k]? = some c ∧ rest ∈ c.addresses := by
        simp [addresses, mem_addressesFrom]
      rw [hbelow, at?]
      cases hc : cs[k]? with
      | none => simp [children, hc]
      | some c => simp [children, hc, ih c (List.mem_of_getElem? hc)]

theorem pairwise_addressesFrom (h : ∀ c ∈ cs, c.addresses.Pairwise (· < ·)) :
    (addressesFrom k cs).Pairwise (· < ·) := by
  induction cs generalizing k with
  | nil => exact .nil
  | cons c cs ih =>
    rw [List.forall_mem_cons] at h
    rw [addressesFrom, List.pairwise_append]
    refine ⟨List.pairwise_map.2 (h.1.imp List.cons_lt_cons_self.2), ih h.2, ?_⟩
    intro address haddress later hlater
    obtain ⟨rest, -, rfl⟩ := List.mem_map.1 haddress
    obtain ⟨j, d, rest', -, -, rfl⟩ := mem_addressesFrom.1 hlater
    exact List.cons_lt_cons_iff.2 (.inl (by omega))

theorem pairwise_addresses (n : Node) : n.addresses.Pairwise (· < ·) := by
  induction n with
  | node i cs ih =>
    rw [addresses, List.pairwise_cons]
    refine ⟨fun address haddress => ?_, pairwise_addressesFrom ih⟩
    obtain ⟨j, c, rest, -, -, rfl⟩ := mem_addressesFrom.1 haddress
    exact List.nil_lt_cons _ _

theorem map_at?_addressesFrom (front : List Node)
    (h : ∀ c ∈ cs, c.addresses.map (c.at? ·) = c.preorder.map some) :
    (addressesFrom front.length cs).map ((node i (front ++ cs)).at? ·) =
      (preorderAll cs).map some := by
  induction cs generalizing front with
  | nil => rfl
  | cons c cs ih =>
    rw [List.forall_mem_cons] at h
    rw [addressesFrom, preorderAll, List.map_append, List.map_append, List.map_map, ← h.1]
    congr 1
    · refine List.map_congr_left fun address _ => ?_
      simp [at?, children]
    · have hrest := ih (front ++ [c]) h.2
      simpa using hrest

theorem map_at?_addresses (n : Node) : n.addresses.map (n.at? ·) = n.preorder.map some := by
  induction n with
  | node i cs ih =>
    rw [addresses, preorder, List.map_cons, List.map_cons]
    exact congrArg (some (node i cs) :: ·) (map_at?_addressesFrom [] ih)

theorem enumerates_descendants (n : Node) : n.Enumerates n.descendants := by
  rw [descendants_eq_preorder]
  exact ⟨n.addresses, n.pairwise_addresses, fun _ => mem_addresses, n.map_at?_addresses.symm⟩

end EbuildAudit.Shell.Node
