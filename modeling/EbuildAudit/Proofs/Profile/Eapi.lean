import EbuildAudit.Profile.Data
import EbuildAudit.Proofs.Basic
import EbuildAudit.Proofs.Version.Reference
import Mathlib.Data.String.Basic

namespace EbuildAudit.Profile

open Text Version

/-- A decimal number with one digit or more, and with no zero before other digits. -/
structure IsDecimal (s : String) : Prop where
  digits : IsNumeral s.toList
  nonempty : s ≠ ""
  zero : s.toList.head? = some '0' → s = "0"

instance (s : String) : Decidable (IsDecimal s) :=
  decidable_of_iff (s.toList.all Char.isDigit ∧ s ≠ "" ∧ (s.toList.head? = some '0' → s = "0"))
    ⟨fun h => ⟨List.all_eq_true.1 h.1, h.2.1, h.2.2⟩,
      fun h => ⟨List.all_eq_true.2 h.digits, h.nonempty, h.zero⟩⟩

def number (s : String) : Nat :=
  digitsValue s.toList

/-- The longer one of two numbers comes first as a text. -/
def Misread (a b : String) : Prop :=
  a.length < b.length ∧ b < a ∨ b.length < a.length ∧ a < b

instance (a b : String) : Decidable (Misread a b) :=
  inferInstanceAs (Decidable (a.length < b.length ∧ b < a ∨ b.length < a.length ∧ a < b))

variable {a b : String}

theorem isDecimal_zero : IsDecimal "0" := by decide +kernel

theorem compare_eq_lt {cs ds : List Char} : compare cs ds = .lt ↔ cs < ds := by
  induction cs generalizing ds with
  | nil =>
    cases ds with
    | nil => exact iff_of_false nofun (List.not_lt_nil _)
    | cons d ds => exact iff_of_true rfl (List.nil_lt_cons d ds)
  | cons c cs ih =>
    cases ds with
    | nil => exact iff_of_false nofun (List.not_lt_nil _)
    | cons d ds =>
      rw [List.compare_cons_cons, Ordering.then_eq_lt, compare_lt_iff_lt, compare_eq_iff_eq, ih,
        List.cons_lt_cons_iff]

theorem number_lt_of_length_lt (ha : IsDecimal a) (hb : IsDecimal b) (h : a.length < b.length) :
    number a < number b := by
  have hpos : 0 < a.length :=
    Nat.pos_of_ne_zero fun hnil => ha.nonempty (String.length_eq_zero_iff.1 hnil)
  have hb' : b.toList.dropWhile (· = '0') = b.toList := by
    refine List.dropWhile_eq_self_iff.2 fun hlength hhead => ?_
    have hhead' : b.toList.head? = some '0' := by
      rw [List.head?_eq_getElem?, List.getElem?_eq_getElem hlength, of_decide_eq_true hhead]
    rw [hb.zero hhead'] at h
    exact Nat.not_succ_le_self _ (Nat.lt_of_le_of_lt hpos h)
  refine digitsValue_lt_of_length_lt ha.digits hb.digits ?_
  rw [hb', String.length_toList]
  exact Nat.lt_of_le_of_lt (List.length_dropWhile_le _ _) h

theorem lt_iff_number_lt_of_length_eq (ha : IsDecimal a) (hb : IsDecimal b)
    (h : a.length = b.length) : a < b ↔ number a < number b := by
  rw [← String.length_toList, ← String.length_toList] at h
  rw [String.lt_iff_toList_lt, ← compare_eq_lt,
    ← compare_digitsValue_of_length_eq ha.digits hb.digits h, compare_lt_iff_lt, number, number]

theorem lt_iff_number_lt_iff (ha : IsDecimal a) (hb : IsDecimal b) :
    (a < b ↔ number a < number b) ↔ ¬Misread a b := by
  rcases lt_trichotomy a.length b.length with hlt | heq | hgt
  · have hne : a ≠ b := fun h => Nat.ne_of_lt hlt (congrArg String.length h)
    have hnumber := number_lt_of_length_lt ha hb hlt
    have htext : a < b ↔ ¬b < a := lt_iff_le_and_ne.trans ((and_iff_left hne).trans not_lt.symm)
    simp only [Misread, hlt, hnumber, Nat.lt_asymm hlt, iff_true, true_and, false_and, or_false,
      htext]
  · simp [Misread, heq, lt_iff_number_lt_of_length_eq ha hb heq]
  · have hnumber := Nat.lt_asymm (number_lt_of_length_lt hb ha hgt)
    simp [Misread, hgt, hnumber, Nat.lt_asymm hgt]

def FollowedBy {α : Type} (P Q : α → Prop) (l : List α) : Prop :=
  ∀ before a after, l = before ++ a :: after → P a → ∃ b ∈ after, Q b

section

variable {α : Type} {P Q : α → Prop} {a : α} {l : List α}

theorem followedBy_concat :
    FollowedBy P Q (l ++ [a]) ↔ ¬P a ∧ (Q a ∨ FollowedBy P Q l) := by
  constructor
  · intro h
    refine ⟨fun ha => ?_, or_iff_not_imp_left.2 fun hq before b after hl hb => ?_⟩
    · obtain ⟨b, hb, -⟩ := h l a [] rfl ha
      cases hb
    · obtain ⟨c, hc, hqc⟩ := h before b (after ++ [a]) (by rw [hl, List.append_assoc]; rfl) hb
      rcases List.mem_append.1 hc with hafter | hlast
      · exact ⟨c, hafter, hqc⟩
      · exact absurd (List.mem_singleton.1 hlast ▸ hqc) hq
  · rintro ⟨ha, hrest⟩ before b after hl hb
    rcases after.eq_nil_or_concat' with rfl | ⟨after, c, rfl⟩
    · obtain ⟨-, hab⟩ := List.append_inj' hl rfl
      exact absurd ((List.cons.inj hab).1 ▸ hb) ha
    · rw [← List.cons_append, ← List.append_assoc] at hl
      obtain ⟨hl, hac⟩ := List.append_inj' hl rfl
      rw [← (List.cons.inj hac).1]
      rcases hrest with hq | hfollowed
      · exact ⟨a, List.mem_append_right _ List.mem_cons_self, hq⟩
      · obtain ⟨d, hd, hqd⟩ := hfollowed before b after hl hb
        exact ⟨d, List.mem_append_left _ hd, hqd⟩

theorem getLast?_filter_ne {p : α → Bool} (h : p a = false) : (l.filter p).getLast? ≠ some a := by
  intro hlast
  rw [List.of_mem_filter (List.mem_of_getLast? hlast)] at h
  cases h

/-- Two tests find the same last element just if what passes both follows what tells them apart. -/
theorem getLast?_filter_eq_iff {p q : α → Bool} : (l.filter p).getLast? = (l.filter q).getLast? ↔
    FollowedBy (fun a => p a ≠ q a) (fun a => p a ∧ q a) l := by
  induction l using List.reverseRecOn with
  | nil => exact iff_of_true rfl fun before a after h => by simp at h
  | append_singleton l a ih =>
    rw [followedBy_concat, ← ih, List.filter_append, List.filter_append, List.getLast?_append,
      List.getLast?_append]
    -- Where only one test passes the last element, the other one finds something else or nothing.
    cases hp : p a with
    | false =>
      cases hq : q a with
      | false => simp [hp, hq]
      | true => simpa [hp, hq] using getLast?_filter_ne hp
    | true =>
      cases hq : q a with
      | false => simpa [hp, hq] using (getLast?_filter_ne hq).symm
      | true => simp [hp, hq]

end

namespace Data

variable {data : Data}

theorem isDecimal_eapi (h : ∀ entry ∈ data.eapis, IsDecimal entry.2) (dir : String) :
    IsDecimal (data.eapi dir) := by
  rw [eapi]
  cases hlookup : data.eapis.lookup dir with
  | none => exact isDecimal_zero
  | some eapi => exact h _ (mem_of_lookup hlookup)

def greaterParent? (data : Data) (path : String) : Option String :=
  ((data.stack path).filter fun dir =>
    number (data.eapi path) < number (data.eapi dir)).getLast?

/-- After every misread EAPI comes one that is newer both as a text and as a number. -/
def Recovers (data : Data) (path : String) : Prop :=
  FollowedBy (fun dir => Misread (data.eapi path) (data.eapi dir))
    (fun dir => data.eapi path < data.eapi dir ∧
      number (data.eapi path) < number (data.eapi dir)) (data.stack path)

end Data

end EbuildAudit.Profile
