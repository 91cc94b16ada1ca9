import EbuildAudit.Json.Basic
import EbuildAudit.Proofs.Ascending
import EbuildAudit.Proofs.Basic
import EbuildAudit.Proofs.Json.RoundTrip
import EbuildAudit.Proofs.Text.Pieces

namespace EbuildAudit.Json

structure Shallow (n : Nat) (j : Json) : Prop where
  proper : j.Proper
  depth_le : j.depth ≤ n

structure Encodes {α : Type} (decode : Json → Option α) (n : Nat) (a : α) (j : Json) : Prop
    extends Shallow n j where
  decode_eq : decode j = some a

variable {α : Type} {n bound : Nat} {decode : Json → Option α} {encode : α → Json} {j : Json}
  {fields : List (String × Json)} {items : List Json}

theorem depthItems_le (h : ∀ item ∈ items, item.depth ≤ n) : depthItems items ≤ n := by
  induction items with
  | nil => exact Nat.zero_le n
  | cons item items ih =>
    rw [List.forall_mem_cons] at h
    exact Nat.max_le.2 ⟨h.1, ih h.2⟩

theorem depthFields_le (h : ∀ field ∈ fields, field.2.depth ≤ n) : depthFields fields ≤ n := by
  induction fields with
  | nil => exact Nat.zero_le n
  | cons field fields ih =>
    rw [List.forall_mem_cons] at h
    exact Nat.max_le.2 ⟨h.1, ih h.2⟩

theorem Shallow.arr (h : ∀ item ∈ items, Shallow n item) : Shallow (n + 1) (.arr items) where
  proper := .arr fun item hitem => (h item hitem).proper
  depth_le := Nat.succ_le_succ (depthItems_le fun item hitem => (h item hitem).depth_le)

theorem Shallow.obj (hnames : (fields.map (·.1)).Nodup)
    (h : ∀ field ∈ fields, Shallow n field.2) : Shallow (n + 1) (.obj fields) where
  proper := .obj hnames fun field hfield => (h field hfield).proper
  depth_le := Nat.succ_le_succ (depthFields_le fun field hfield => (h field hfield).depth_le)

theorem record?_names (h : (fields.map (·.1)).Nodup) :
    (obj fields).record? (fields.map (·.1)) = some (fields.map fun field => some field.2) := by
  rw [record?, List.map_map]
  congr 1
  exact List.map_congr_left fun field hfield => lookup_of_mem h hfield

namespace Encodes

theorem str (s : String) : Encodes asString? n s (.str s) :=
  ⟨⟨.str s, Nat.zero_le n⟩, rfl⟩

theorem bool (b : Bool) : Encodes asBool? n b (.bool b) :=
  ⟨⟨.bool b, Nat.zero_le n⟩, rfl⟩

theorem nat {k : Nat} (h : k < bound) (hbound : bound ≤ 0x10000000000000000) :
    Encodes (·.asNat? bound) n k (.ofNat k) where
  proper := .int (by simp only [isWord, Bool.and_eq_true, decide_eq_true_eq]; omega)
  depth_le := Nat.zero_le n
  decode_eq := by simp [ofNat, asNat?, h]

theorem option {a : Option α} (h : ∀ b, Encodes decode n b (encode b))
    (hnull : ∀ b, encode b ≠ .null) :
    Encodes (·.asOptional? decode) n a (.ofOption encode a) := by
  cases a with
  | none => exact ⟨⟨.null, Nat.zero_le n⟩, rfl⟩
  | some b =>
    refine ⟨(h b).toShallow, ?_⟩
    rw [ofOption, asOptional?.eq_def]
    split
    case h_1 heq => exact absurd heq (hnull b)
    case h_2 => rw [(h b).decode_eq, Option.map_some]

theorem list {as : List α} (h : ∀ a ∈ as, Encodes decode n a (encode a)) :
    Encodes (·.asListOf? decode) (n + 1) as (.arr (as.map encode)) where
  toShallow := .arr <| List.forall_mem_map.2 fun a ha => (h a ha).toShallow
  decode_eq := by
    rw [asListOf?, Text.mapM_eq_some_iff, List.forall₂_map_left_iff, List.forall₂_same]
    exact fun a ha => (h a ha).decode_eq

theorem strings (xs : List String) : Encodes (·.asListOf? asString?) (n + 1) xs (.strings xs) :=
  list fun s _ => str s

theorem set {xs : List String} (h : xs.Pairwise (· < ·)) : Encodes asSet? (n + 1) xs (.strings xs) where
  toShallow := (strings xs).toShallow
  decode_eq := by
    rw [asSet?, (strings (n := n) xs).decode_eq, Option.map_some, Ascending.ofList_eq_self h]

theorem map (encode : α → Json) {entries : List (String × α)} (hsorted : Ascending.Sorted entries)
    (h : ∀ entry ∈ entries, Encodes decode n entry.2 (encode entry.2)) :
    Encodes (·.asMapOf? decode) (n + 1) entries
      (.obj (entries.map fun (name, a) => (name, encode a))) where
  toShallow := by
    refine .obj ?_ <| List.forall_mem_map.2 fun entry hentry => (h entry hentry).toShallow
    rw [List.map_map]
    exact hsorted.nodup
  decode_eq := by
    refine Option.bind_eq_some_iff.2
      ⟨entries, ?_, congrArg some (Ascending.foldl_set_eq_self hsorted)⟩
    rw [Text.mapM_eq_some_iff, List.forall₂_map_left_iff, List.forall₂_same]
    exact fun entry hentry => by simp [(h entry hentry).decode_eq]

theorem record {a : α} (hnames : (fields.map (·.1)).Nodup)
    (hfields : ∀ field ∈ fields, Shallow n field.2)
    (hdecode : (obj fields).record? (fields.map (·.1)) = some (fields.map fun field => some field.2) →
      decode (.obj fields) = some a) : Encodes decode (n + 1) a (.obj fields) :=
  ⟨.obj hnames hfields, hdecode (record?_names hnames)⟩

end Encodes

end EbuildAudit.Json
