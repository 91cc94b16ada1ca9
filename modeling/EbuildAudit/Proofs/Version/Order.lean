import EbuildAudit.Proofs.Text.Pieces
import EbuildAudit.Version
import Mathlib.Data.Char
import Mathlib.Data.List.DropRight
import Mathlib.Data.List.Forall2
import Mathlib.Data.Prod.Lex

namespace EbuildAudit.Version

open Text

def numberKey (a : List Char) : ℕ ×ₗ List Char :=
  let a := a.dropWhile (· = '0')
  toLex (byteLength a, a)

def componentKey (a : List Char) : ℕ ×ₗ List Char :=
  if a.head? = some '0' then toLex (0, dropEndWhile (· = '0') a) else toLex (byteLength a, a)

def componentKeys : List (List Char) → List (ℕ ×ₗ List Char)
  | [] => []
  | a :: as => numberKey a :: as.map componentKey

def suffixKey (a : Suffix) : ℕ ×ₗ ℕ :=
  toLex (if a.kind = .p then 5 else a.kind.rank, a.number)

/-- The end of the suffixes has a place of its own, between release candidates and patch levels. -/
def suffixKeys (as : List Suffix) : List (ℕ ×ₗ ℕ) :=
  as.map suffixKey ++ [toLex (4, 0)]

abbrev Key :=
  List (ℕ ×ₗ List Char) ×ₗ Option Char ×ₗ List (ℕ ×ₗ ℕ) ×ₗ ℕ

def key (v : Version) : Key :=
  toLex (componentKeys v.components, toLex (v.letter, toLex (suffixKeys v.suffixes, v.revision)))

def Numeric (v : Version) : Prop :=
  ∀ a ∈ v.components, ∀ c ∈ a, '0' ≤ c

variable {s : String} {a b : List Char} {as bs : List (List Char)} {u v w : Version}
  {vs ws : List Version}

theorem compare_toLex {α β : Type} [Ord α] [Ord β] (x x' : α) (y y' : β) :
    compare (toLex (x, y)) (toLex (x', y')) = (compare x x').then (compare y y') :=
  rfl

instance {α β : Type} [Ord α] [Ord β] [Std.LawfulEqOrd α] [Std.LawfulEqOrd β] :
    Std.LawfulEqOrd (α ×ₗ β) where
  compare_self {x} := by
    have hfst : compare (ofLex x).1 (ofLex x).1 = .eq := Std.ReflCmp.compare_self
    have hsnd : compare (ofLex x).2 (ofLex x).2 = .eq := Std.ReflCmp.compare_self
    exact Ordering.then_eq_eq.2 ⟨hfst, hsnd⟩
  eq_of_compare h := by
    obtain ⟨hfst, hsnd⟩ := Ordering.then_eq_eq.1 h
    exact Prod.ext (Std.LawfulEqCmp.eq_of_compare hfst) (Std.LawfulEqCmp.eq_of_compare hsnd)

theorem dropEndWhile_initial (p : Char → Bool) (a : List Char) : dropEndWhile p a <+: a :=
  List.rdropWhile_prefix p a

theorem dropEndWhile_of_zero (ha : a.head? = some '0') :
    dropEndWhile (· = '0') a = [] ∨ ∃ rest, dropEndWhile (· = '0') a = '0' :: rest := by
  obtain ⟨zeros, rfl⟩ := List.head?_eq_some_iff.1 ha
  rcases List.prefix_cons_iff.1 (dropEndWhile_initial _ ('0' :: zeros)) with hnil | ⟨rest, hrest, -⟩
  · exact .inl hnil
  · exact .inr ⟨rest, hrest⟩

theorem dropEndWhile_of_ne_zero {c : Char} (hc : c ≠ '0') (cs : List Char) :
    ∃ rest, dropEndWhile (· = '0') (c :: cs) = c :: rest := by
  rcases List.prefix_cons_iff.1 (dropEndWhile_initial (· = '0') (c :: cs)) with
    hnil | ⟨rest, hrest, -⟩
  · have hzero := List.rdropWhile_eq_nil_iff.1 hnil c List.mem_cons_self
    exact absurd (of_decide_eq_true hzero) hc
  · exact ⟨rest, hrest⟩

theorem compare_fraction_number {c : Char} {cs : List Char} (ha : a.head? = some '0')
    (hc : c ≠ '0') (hle : '0' ≤ c) :
    compare (dropEndWhile (· = '0') a) (dropEndWhile (· = '0') (c :: cs)) = .lt := by
  obtain ⟨rest, hrest⟩ := dropEndWhile_of_ne_zero hc cs
  rw [hrest]
  rcases dropEndWhile_of_zero ha with hnil | ⟨begun, hbegun⟩
  · rw [hnil]
    rfl
  · rw [hbegun, List.compare_cons_cons, compare_lt_iff_lt.2 (lt_of_le_of_ne hle hc.symm)]
    rfl

theorem compare_of_mixed (ha : a.head? = some '0') (hb : b.head? ≠ some '0')
    (hle : ∀ c ∈ b, '0' ≤ c) :
    compare (dropEndWhile (· = '0') a) (dropEndWhile (· = '0') b) =
      compare (componentKey a) (componentKey b) := by
  rw [componentKey, componentKey, if_pos ha, if_neg hb, compare_toLex]
  cases b with
  | nil => rfl
  | cons c cs =>
    have hc : c ≠ '0' := fun hc => hb (congrArg some hc)
    have hlength : 0 < byteLength (c :: cs) := Nat.add_pos_left c.utf8Size_pos _
    rw [compare_fraction_number ha hc (hle c List.mem_cons_self),
      compare_lt_iff_lt.2 hlength]
    rfl

theorem numberKey_of_ne_zero (ha : a.head? ≠ some '0') : numberKey a = componentKey a := by
  rw [numberKey, componentKey, if_neg ha]
  cases a with
  | nil => rfl
  | cons c cs =>
    have hc : c ≠ '0' := fun hc => ha (congrArg some hc)
    rw [List.dropWhile_cons_of_neg (by simpa using hc)]

theorem compareNumbers_eq (a b : List Char) :
    compareNumbers a b = compare (numberKey a) (numberKey b) :=
  rfl

theorem compareComponents_eq (ha : ∀ c ∈ a, '0' ≤ c) (hb : ∀ c ∈ b, '0' ≤ c) :
    compareComponents a b = compare (componentKey a) (componentKey b) := by
  simp only [compareComponents, Bool.or_eq_true, decide_eq_true_eq]
  by_cases hzero : a.head? = some '0'
  · rw [if_pos (.inl hzero)]
    by_cases hzero' : b.head? = some '0'
    · rw [componentKey, componentKey, if_pos hzero, if_pos hzero']
      rfl
    · exact compare_of_mixed hzero hzero' hb
  · by_cases hzero' : b.head? = some '0'
    · have hswap (k k' : List Char) : compare k k' = (compare k' k).swap :=
        Std.OrientedCmp.eq_swap
      rw [if_pos (.inr hzero'), hswap, compare_of_mixed hzero' hzero ha]
      exact Std.OrientedCmp.eq_swap.symm
    · rw [if_neg (not_or.2 ⟨hzero, hzero'⟩), compareNumbers_eq, numberKey_of_ne_zero hzero,
        numberKey_of_ne_zero hzero']

theorem compareLater_eq (ha : ∀ a ∈ as, ∀ c ∈ a, '0' ≤ c) (hb : ∀ b ∈ bs, ∀ c ∈ b, '0' ≤ c) :
    compareLater as bs = compare (as.map componentKey) (bs.map componentKey) := by
  induction as generalizing bs with
  | nil => cases bs <;> rfl
  | cons a as ih =>
    cases bs with
    | nil => rfl
    | cons b bs =>
      rw [List.forall_mem_cons] at ha hb
      rw [compareLater, compareComponents_eq ha.1 hb.1, ih ha.2 hb.2, List.map_cons, List.map_cons,
        List.compare_cons_cons]

theorem compareComponentLists_eq (ha : ∀ a ∈ as, ∀ c ∈ a, '0' ≤ c)
    (hb : ∀ b ∈ bs, ∀ c ∈ b, '0' ≤ c) :
    compareComponentLists as bs = compare (componentKeys as) (componentKeys bs) := by
  cases as with
  | nil => cases bs <;> rfl
  | cons a as =>
    cases bs with
    | nil => rfl
    | cons b bs =>
      rw [List.forall_mem_cons] at ha hb
      rw [compareComponentLists, compareLater_eq ha.2 hb.2, compareNumbers_eq, componentKeys,
        componentKeys, List.compare_cons_cons]

theorem compareLetters_eq (x y : Option Char) : compareLetters x y = compare x y := by
  cases x <;> cases y <;> rfl

theorem compareSuffix_eq (a b : Suffix) :
    compareSuffix a b = compare (suffixKey a) (suffixKey b) := by
  obtain ⟨kind, n⟩ := a
  obtain ⟨kind', m⟩ := b
  cases kind <;> cases kind' <;> rfl

theorem compareSuffixes_eq (as bs : List Suffix) :
    compareSuffixes as bs = compare (suffixKeys as) (suffixKeys bs) := by
  induction as generalizing bs with
  | nil =>
    cases bs with
    | nil => rfl
    | cons b bs =>
      obtain ⟨kind, n⟩ := b
      cases kind <;> rfl
  | cons a as ih =>
    cases bs with
    | nil =>
      obtain ⟨kind, n⟩ := a
      cases kind <;> rfl
    | cons b bs =>
      rw [compareSuffixes, compareSuffix_eq, ih, suffixKeys, suffixKeys, suffixKeys, suffixKeys,
        List.map_cons, List.map_cons, List.cons_append, List.cons_append, List.compare_cons_cons]

theorem order_eq_compare_key (hv : v.Numeric) (hw : w.Numeric) :
    v.order w = compare v.key w.key := by
  rw [order, compareComponentLists_eq hv hw, compareLetters_eq, compareSuffixes_eq]
  rfl

theorem zero_le_of_isDecimalDigit {c : Char} (h : isDecimalDigit c) : '0' ≤ c := by
  have hbounds : ∀ n ∈ decimalDigits.boundaries, 0x30 ≤ n := by decide +kernel
  by_contra hlt
  have hbelow : c.toNat < 0x30 := not_le.1 hlt
  have hnone : ∀ n ∈ decimalDigits.boundaries, ¬decide (n ≤ c.toNat) := by
    intro n hn
    have hle := hbounds n hn
    rw [decide_eq_true_eq]
    omega
  rw [isDecimalDigit, CharSet.contains, List.countP_eq_zero.2 hnone] at h
  cases h

theorem components_of_ofChars? {cs : List Char} (h : ofChars? cs = some v) :
    v.components = (cs.takeWhile isComponentChar).splitOn '.' := by
  simp only [ofChars?] at h
  split at h
  case isTrue => cases h
  case isFalse =>
    split at h
    case h_1 =>
      cases h
      rfl
    case h_2 => cases h

theorem numeric_of_parse? (h : parse? s = some v) : v.Numeric := by
  intro a ha c hc
  rw [components_of_ofChars? h] at ha
  obtain ⟨hmem, hdot⟩ := of_mem_splitOn ha hc
  have hchar : isComponentChar c := List.mem_takeWhile_imp hmem
  rcases Bool.or_eq_true_iff.1 hchar with hdigit | heq
  · exact zero_le_of_isDecimalDigit hdigit
  · exact absurd (beq_iff_eq.1 heq) hdot

theorem order_self (hv : v.Numeric) : v.order v = .eq := by
  rw [order_eq_compare_key hv hv]
  exact Std.ReflCmp.compare_self

theorem order_swap (hv : v.Numeric) (hw : w.Numeric) : w.order v = (v.order w).swap := by
  rw [order_eq_compare_key hv hw, order_eq_compare_key hw hv]
  exact Std.OrientedCmp.eq_swap

theorem order_trans (hu : u.Numeric) (hv : v.Numeric) (hw : w.Numeric) (huv : u.order v ≠ .gt)
    (hvw : v.order w ≠ .gt) : u.order w ≠ .gt := by
  rw [order_eq_compare_key hu hv] at huv
  rw [order_eq_compare_key hv hw] at hvw
  rw [order_eq_compare_key hu hw]
  exact Ordering.isLE_iff_ne_gt.1
    (Std.TransCmp.isLE_trans (Ordering.isLE_iff_ne_gt.2 huv) (Ordering.isLE_iff_ne_gt.2 hvw))

theorem order_congr (hu : u.Numeric) (hv : v.Numeric) (hw : w.Numeric) (h : u.order v = .eq) :
    u.order w = v.order w := by
  rw [order_eq_compare_key hu hv] at h
  rw [order_eq_compare_key hu hw, order_eq_compare_key hv hw]
  exact Std.TransCmp.congr_left h

theorem map_key_sort (hvs : ∀ v ∈ vs, v.Numeric) :
    (sort vs).map key = (vs.map key).mergeSort fun k k' => (compare k k').isLE := by
  refine List.map_mergeSort fun v hv w hw => ?_
  rw [notAfter, order_eq_compare_key (hvs v hv) (hvs w hw)]
  cases compare v.key w.key <;> rfl

theorem pairwise_mergeSort_keys (keys : List Key) :
    (keys.mergeSort fun k k' => (compare k k').isLE).Pairwise fun k k' => (compare k k').isLE := by
  refine List.pairwise_mergeSort (fun _ _ _ => Std.TransCmp.isLE_trans) (fun k k' => ?_) keys
  have hswap : compare k' k = (compare k k').swap := Std.OrientedCmp.eq_swap
  rw [hswap]
  cases compare k k' <;> rfl

theorem map_key_sort_of_perm (hvs : ∀ v ∈ vs, v.Numeric) (h : vs.Perm ws) :
    (sort vs).map key = (sort ws).map key := by
  rw [map_key_sort hvs, map_key_sort fun w hw => hvs w (h.mem_iff.2 hw)]
  refine List.Perm.eq_of_pairwise (fun k k' _ _ hk hk' => ?_) (pairwise_mergeSort_keys _)
    (pairwise_mergeSort_keys _) ?_
  · exact Std.LawfulEqCmp.eq_of_compare (Std.OrientedCmp.isLE_antisymm hk hk')
  · exact ((List.mergeSort_perm _ _).trans (h.map key)).trans (List.mergeSort_perm _ _).symm

theorem numeric_of_mem_sort (hvs : ∀ v ∈ vs, v.Numeric) (hv : v ∈ sort vs) : v.Numeric :=
  hvs v ((List.mergeSort_perm vs notAfter).mem_iff.1 hv)

theorem pairwise_sort (hvs : ∀ v ∈ vs, v.Numeric) :
    (sort vs).Pairwise fun v w => v.order w ≠ .gt := by
  have hkeys := pairwise_mergeSort_keys (vs.map key)
  rw [← map_key_sort hvs, List.pairwise_map] at hkeys
  refine hkeys.imp_of_mem fun {v w} hv hw hle => ?_
  rw [order_eq_compare_key (numeric_of_mem_sort hvs hv) (numeric_of_mem_sort hvs hw)]
  exact Ordering.isLE_iff_ne_gt.1 hle

theorem forall₂_sort (hvs : ∀ v ∈ vs, v.Numeric) (h : vs.Perm ws) :
    List.Forall₂ (fun v w => v.order w = .eq) (sort vs) (sort ws) := by
  have hws : ∀ w ∈ ws, w.Numeric := fun w hw => hvs w (h.mem_iff.2 hw)
  have hkeys : List.Forall₂ (fun v w : Version => v.key = w.key) (sort vs) (sort ws) := by
    refine List.forall₂_map_left_iff.1 (List.forall₂_map_right_iff.1 ?_)
    rw [map_key_sort_of_perm hvs h, List.forall₂_same]
    exact fun _ _ => rfl
  refine List.forall₂_iff_zip.2 ⟨hkeys.length_eq, fun {v w} hvw => ?_⟩
  obtain ⟨hv, hw⟩ := List.of_mem_zip hvw
  rw [order_eq_compare_key (numeric_of_mem_sort hvs hv) (numeric_of_mem_sort hws hw),
    List.forall₂_zip hkeys hvw]
  exact Std.ReflCmp.compare_self

/--
The order of what is read as versions is total and transitive, and versions that compare equal
compare alike to all others. So versions can be sorted, and whatever order they come in, equal ones
end up in the same places.
-/
theorem order_total_preorder :
    (∀ s t r u v w, parse? s = some u → parse? t = some v → parse? r = some w →
      u.order u = .eq ∧ v.order u = (u.order v).swap ∧
        (u.order v ≠ .gt → v.order w ≠ .gt → u.order w ≠ .gt) ∧
        (u.order v = .eq → u.order w = v.order w)) ∧
      ∀ vs ws : List Version, (∀ v ∈ vs, ∃ s, parse? s = some v) → vs.Perm ws →
        (sort vs).Perm vs ∧ (sort vs).Pairwise (fun v w => v.order w ≠ .gt) ∧
          List.Forall₂ (fun v w => v.order w = .eq) (sort vs) (sort ws) := by
  constructor
  · intro s t r u v w hs ht hr
    have hu := numeric_of_parse? hs
    have hv := numeric_of_parse? ht
    have hw := numeric_of_parse? hr
    exact ⟨order_self hu, order_swap hu hv, order_trans hu hv hw, order_congr hu hv hw⟩
  · intro vs ws hread hperm
    have hvs : ∀ v ∈ vs, v.Numeric := fun v hv => (hread v hv).elim fun s hs => numeric_of_parse? hs
    exact ⟨List.mergeSort_perm vs notAfter, pairwise_sort hvs, forall₂_sort hvs hperm⟩

theorem order_total_preorder_fraction :
    ∃ u v w, parse? "1.01_p" = some u ∧ parse? "1.1" = some v ∧ parse? "1.1-r0" = some w ∧
      u.order v ≠ .gt ∧ v.order w = .eq ∧ u.order w ≠ .gt ∧ v.order u = w.order u ∧
      List.Forall₂ (fun v w => v.order w = .eq) (sort [v, w, u]) (sort [w, v, u]) := by
  let u : Version := ⟨"1.01_p", "1.01_p", [['1'], ['0', '1']], none, [⟨.p, 0⟩], 0⟩
  let v : Version := ⟨"1.1", "1.1", [['1'], ['1']], none, [], 0⟩
  let w : Version := ⟨"1.1-r0", "1.1", [['1'], ['1']], none, [], 0⟩
  have hu : parse? "1.01_p" = some u := by decide +kernel
  have hv : parse? "1.1" = some v := by decide +kernel
  have hw : parse? "1.1-r0" = some w := by decide +kernel
  have huv : u.order v ≠ .gt := by decide +kernel
  have hvw : v.order w = .eq := by decide +kernel
  obtain ⟨hpoints, hsort⟩ := order_total_preorder
  obtain ⟨-, -, htrans, -⟩ := hpoints _ _ _ u v w hu hv hw
  obtain ⟨-, -, -, hcongr⟩ := hpoints _ _ _ v w u hv hw hu
  have hread : ∀ x ∈ [v, w, u], ∃ s, parse? s = some x := by
    simp only [List.forall_mem_cons]
    exact ⟨⟨_, hv⟩, ⟨_, hw⟩, ⟨_, hu⟩, by simp⟩
  obtain ⟨-, -, hequal⟩ := hsort [v, w, u] [w, v, u] hread (.swap _ _ _)
  refine ⟨u, v, w, hu, hv, hw, huv, hvw, htrans huv ?_, hcongr hvw, hequal⟩
  rw [hvw]
  decide

end EbuildAudit.Version
