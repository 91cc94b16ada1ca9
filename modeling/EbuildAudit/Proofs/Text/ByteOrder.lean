import Mathlib.Data.String.Basic
import Mathlib.Data.UInt

/-!
The order of texts by their bytes. In UTF-8 a greater character has greater bytes, with more of them
or not, so texts stand to each other as the sequences of their bytes do.
-/

namespace EbuildAudit.Text

def bytes (s : String) : List UInt8 :=
  s.toUTF8.data.toList

variable {c d : Char} {s t : String} {cs ds : List Char} {l l' : List UInt8} {v w : Nat}

theorem bytes_eq_flatMap (s : String) : bytes s = s.toList.flatMap String.utf8EncodeChar := by
  have h : s.toUTF8 = s.toList.utf8Encode := by simp
  rw [bytes, h, List.utf8Encode, List.data_toByteArray]

theorem ofNat_lt_ofNat (hw : w < 256) (h : v < w) : UInt8.ofNat v < UInt8.ofNat w := by
  rw [UInt8.lt_iff_toNat_lt, UInt8.toNat_ofNat', UInt8.toNat_ofNat']
  omega

theorem head_lt (hw : w < 256) (h : v < w) : UInt8.ofNat v :: l < UInt8.ofNat w :: l' :=
  List.cons_lt_cons_iff.2 (.inl (ofNat_lt_ofNat hw h))

theorem cons_lt (hw : w < 256) (hle : v ≤ w) (h : v = w → l < l') :
    UInt8.ofNat v :: l < UInt8.ofNat w :: l' := by
  rcases Nat.lt_or_eq_of_le hle with hlt | rfl
  · exact head_lt hw hlt
  · exact List.cons_lt_cons_iff.2 (.inr ⟨rfl, h rfl⟩)

/-- A greater character has greater bytes, whatever comes after them. -/
theorem utf8EncodeChar_lt (h : c < d) :
    String.utf8EncodeChar c ++ l < String.utf8EncodeChar d ++ l' := by
  have hlt : c.val.toNat < d.val.toNat := h
  have hd : d.val.toNat < 0x110000 := by
    have hvalid := d.valid
    simp only [UInt32.isValidChar, Nat.isValidChar] at hvalid
    omega
  simp only [String.utf8EncodeChar]
  generalize c.val.toNat = v at hlt
  generalize d.val.toNat = w at hlt hd
  -- Longer encodings begin with greater bytes; of two with one length, the first bytes that
  -- differ are in the order of the characters.
  split
  · split
    · exact head_lt (by omega) hlt
    · split
      · exact head_lt (by omega) (by omega)
      · split <;> exact head_lt (by omega) (by omega)
  · rw [if_neg (by omega : ¬w ≤ 127)]
    split
    · split
      · refine cons_lt (by omega) (by omega) fun _ => head_lt (by omega) (by omega)
      · split <;> exact head_lt (by omega) (by omega)
    · rw [if_neg (by omega : ¬w ≤ 2047)]
      split
      · split
        · refine cons_lt (by omega) (by omega) fun _ => cons_lt (by omega) (by omega) fun _ =>
            head_lt (by omega) (by omega)
        · exact head_lt (by omega) (by omega)
      · rw [if_neg (by omega : ¬w ≤ 65535)]
        refine cons_lt (by omega) (by omega) fun _ => cons_lt (by omega) (by omega) fun _ =>
          cons_lt (by omega) (by omega) fun _ => head_lt (by omega) (by omega)

theorem flatMap_utf8EncodeChar_lt (h : cs < ds) :
    cs.flatMap String.utf8EncodeChar < ds.flatMap String.utf8EncodeChar := by
  induction cs generalizing ds with
  | nil =>
    cases ds with
    | nil => exact absurd h (List.lt_irrefl _)
    | cons d ds =>
      rw [List.flatMap_nil, List.flatMap_cons]
      obtain ⟨b, rest, hb⟩ := List.exists_cons_of_ne_nil (String.utf8EncodeChar_ne_nil (c := d))
      rw [hb]
      exact List.nil_lt_cons _ _
  | cons c cs ih =>
    cases ds with
    | nil => exact absurd h (List.not_lt_nil _)
    | cons d ds =>
      rw [List.flatMap_cons, List.flatMap_cons]
      rcases List.cons_lt_cons_iff.1 h with hlt | ⟨rfl, hlt⟩
      · exact utf8EncodeChar_lt hlt
      · exact List.append_left_lt (ih hlt)

theorem bytes_lt_bytes (h : s < t) : bytes s < bytes t := by
  rw [bytes_eq_flatMap, bytes_eq_flatMap]
  exact flatMap_utf8EncodeChar_lt h

theorem lt_iff_bytes_lt : s < t ↔ bytes s < bytes t := by
  refine ⟨bytes_lt_bytes, fun h => ?_⟩
  rcases lt_trichotomy s t with hlt | rfl | hgt
  · exact hlt
  · exact absurd h (List.lt_irrefl _)
  · exact absurd (bytes_lt_bytes hgt) (List.lt_asymm h)

end EbuildAudit.Text
