import EbuildAudit.Proofs.Version.Order
import EbuildAudit.Proofs.Version.Release
import Mathlib.Algebra.Ring.Nat

/-!
The order of releases as package managers define it, with numbers of any size, and how far the
order of versions follows it. Components are compared exactly, however long they are; a suffix
number or a revision counts as missing from a bound on. So the two orders agree on the releases
whose suffix numbers and revision stay below the bound, and on no others.
-/

namespace EbuildAudit.Version

open Text

namespace Release

def compareLaterComponents (a b : List Char) : Ordering :=
  if '0' ∈ a.head? ∨ '0' ∈ b.head? then
    compare (a.rdropWhile (· = '0')) (b.rdropWhile (· = '0'))
  else compare (digitsValue a) (digitsValue b)

def place : Option (SuffixKind × List Char) → ℕ ×ₗ ℕ
  | some (.alpha, digits) => toLex (0, digitsValue digits)
  | some (.beta, digits) => toLex (1, digitsValue digits)
  | some (.pre, digits) => toLex (2, digitsValue digits)
  | some (.rc, digits) => toLex (3, digitsValue digits)
  | none => toLex (4, 0)
  | some (.p, digits) => toLex (5, digitsValue digits)

def places (r : Release) : List (ℕ ×ₗ ℕ) :=
  (r.suffixes.map some ++ [none]).map place

def revisionNumber (r : Release) : ℕ :=
  digitsValue (r.revision.getD [])

/-- The order of package managers: each line decides if the lines before it do not. -/
def order (r r' : Release) : Ordering :=
  (compare (digitsValue r.first) (digitsValue r'.first)).then <|
  ((r.others.zipWith compareLaterComponents r'.others).foldr Ordering.then Ordering.eq).then <|
  (compare r.others.length r'.others.length).then <|
  (compare r.letter r'.letter).then <|
  (compare r.places r'.places).then <|
  compare r.revisionNumber r'.revisionNumber

def numbers (r : Release) : List (List Char) :=
  r.suffixes.map (·.2) ++ r.revision.toList

def Bounded (r : Release) : Prop :=
  ∀ digits ∈ r.numbers, digitsValue digits < numberBound

instance (r : Release) : Decidable r.Bounded :=
  List.decidableBAll (fun digits => digitsValue digits < numberBound) r.numbers

end Release

variable {c : Char} {a b cs digits : List Char} {as bs : List (List Char)} {r r' : Release}

theorem digitsValue_cons (c : Char) (cs : List Char) :
    digitsValue (c :: cs) = digitValue c * 10 ^ cs.length + digitsValue cs := by
  have hfold (cs : List Char) : digitsValue cs = Nat.ofDigitChars 10 cs 0 :=
    Nat.ofDigitChars_eq_foldl.symm
  rw [hfold, hfold, Nat.ofDigitChars_cons, Nat.ofDigitChars_eq_ofDigitChars_zero, Nat.mul_zero,
    Nat.zero_add, Nat.mul_comm]
  rfl

theorem IsNumeral.of_cons (h : IsNumeral (c :: cs)) : c.isDigit ∧ IsNumeral cs :=
  List.forall_mem_cons.1 h

theorem digitValue_le (hc : c.isDigit) : digitValue c ≤ 9 :=
  Nat.sub_le_sub_right (Char.isDigit_iff_toNat.1 hc).2 _

theorem digitValue_lt {d : Char} (hc : c.isDigit) (h : c < d) : digitValue c < digitValue d := by
  have hlow := (Char.isDigit_iff_toNat.1 hc).1
  have hlt : c.toNat < d.toNat := h
  simp only [digitValue]
  omega

theorem digitsValue_lt (h : IsNumeral digits) : digitsValue digits < 10 ^ digits.length := by
  induction digits with
  | nil => exact Nat.one_pos
  | cons c digits ih =>
    obtain ⟨hc, hdigits⟩ := h.of_cons
    have hle := Nat.mul_le_mul_right (10 ^ digits.length) (digitValue_le hc)
    have hlt := ih hdigits
    rw [digitsValue_cons, List.length_cons, Nat.pow_succ]
    omega

theorem pow_le_digitsValue (h : IsNumeral (c :: cs)) (hc : c ≠ '0') :
    10 ^ cs.length ≤ digitsValue (c :: cs) := by
  have hlow := (Char.isDigit_iff_toNat.1 h.of_cons.1).1
  have hne : c.toNat ≠ '0'.toNat := fun heq => hc (Char.toNat_inj.1 heq)
  have hpos : 1 ≤ digitValue c := by
    simp only [digitValue]
    omega
  have hle := Nat.mul_le_mul_right (10 ^ cs.length) hpos
  rw [digitsValue_cons]
  omega

theorem compare_digitValue {d : Char} (hc : c.isDigit) (hd : d.isDigit) :
    compare (digitValue c) (digitValue d) = compare c d := by
  rcases lt_trichotomy c d with hlt | rfl | hgt
  · rw [compare_lt_iff_lt.2 hlt, compare_lt_iff_lt.2 (digitValue_lt hc hlt)]
  · rw [compare_eq_iff_eq.2 rfl, compare_eq_iff_eq.2 rfl]
  · rw [compare_gt_iff_gt.2 hgt, compare_gt_iff_gt.2 (digitValue_lt hd hgt)]

theorem compare_of_place {w x y m n : ℕ} (hm : m < w) (hn : n < w) :
    compare (x * w + m) (y * w + n) = (compare x y).then (compare m n) := by
  rcases lt_trichotomy x y with hlt | rfl | hgt
  · have hle := Nat.mul_le_mul_right w hlt
    rw [Nat.succ_mul] at hle
    rw [compare_lt_iff_lt.2 hlt, compare_lt_iff_lt.2 (by omega)]
    rfl
  · rw [compare_eq_iff_eq.2 (rfl : x = x), Ordering.then]
    rcases lt_trichotomy m n with hlt | rfl | hgt
    · rw [compare_lt_iff_lt.2 hlt, compare_lt_iff_lt.2 (Nat.add_lt_add_left hlt _)]
    · rw [compare_eq_iff_eq.2 rfl, compare_eq_iff_eq.2 rfl]
    · rw [compare_gt_iff_gt.2 hgt, compare_gt_iff_gt.2 (Nat.add_lt_add_left hgt _)]
  · have hle := Nat.mul_le_mul_right w hgt
    rw [Nat.succ_mul] at hle
    rw [compare_gt_iff_gt.2 hgt, compare_gt_iff_gt.2 (by omega)]
    rfl

theorem compare_digitsValue_of_length_eq (ha : IsNumeral a) (hb : IsNumeral b)
    (hlength : a.length = b.length) : compare (digitsValue a) (digitsValue b) = compare a b := by
  induction a generalizing b with
  | nil =>
    rw [List.length_eq_zero_iff.1 hlength.symm]
    rfl
  | cons c a ih =>
    cases b with
    | nil => cases hlength
    | cons d b =>
      have hlength : a.length = b.length := Nat.succ.inj hlength
      obtain ⟨hc, ha⟩ := ha.of_cons
      obtain ⟨hd, hb⟩ := hb.of_cons
      rw [List.compare_cons_cons, digitsValue_cons, digitsValue_cons, hlength,
        compare_of_place (hlength ▸ digitsValue_lt ha) (digitsValue_lt hb), ih ha hb hlength,
        compare_digitValue hc hd]

theorem utf8Size_of_isDigit (hc : c.isDigit) : c.utf8Size = 1 := by
  have hhigh := (Char.isDigit_iff_toNat.1 hc).2
  exact Char.utf8Size_eq_one_iff.2 (UInt32.le_iff_toNat_le.2 (hhigh.trans (by decide)))

theorem byteLength_eq (h : IsNumeral digits) : byteLength digits = digits.length := by
  induction digits with
  | nil => rfl
  | cons c digits ih =>
    obtain ⟨hc, hdigits⟩ := h.of_cons
    have hrest := ih hdigits
    rw [List.length_cons, ← hrest, Nat.add_comm, ← utf8Size_of_isDigit hc]
    rfl

theorem IsNumeral.dropWhile (h : IsNumeral digits) (p : Char → Bool) :
    IsNumeral (digits.dropWhile p) :=
  fun c hc => h c (List.dropWhile_subset p hc)

theorem digitsValue_dropWhile (digits : List Char) :
    digitsValue (digits.dropWhile (· = '0')) = digitsValue digits := by
  induction digits with
  | nil => rfl
  | cons c digits ih =>
    by_cases hc : c = '0'
    · rw [List.dropWhile_cons_of_pos (by simpa using hc), ih, digitsValue_cons, hc]
      simp [digitValue]
    · rw [List.dropWhile_cons_of_neg (by simpa using hc)]

theorem digitsValue_lt_of_length_lt (ha : IsNumeral a) (hb : IsNumeral b)
    (hlength : (a.dropWhile (· = '0')).length < (b.dropWhile (· = '0')).length) :
    digitsValue a < digitsValue b := by
  have hb' := hb.dropWhile (· = '0')
  rw [← digitsValue_dropWhile a, ← digitsValue_dropWhile b]
  cases hcut : b.dropWhile (· = '0') with
  | nil => simp [hcut] at hlength
  | cons c rest =>
    rw [hcut] at hlength hb'
    have hc : c ≠ '0' := by
      have := List.head?_dropWhile_not (p := (· = '0')) b
      simpa [hcut] using this
    calc
      digitsValue (a.dropWhile (· = '0')) < 10 ^ (a.dropWhile (· = '0')).length :=
        digitsValue_lt (ha.dropWhile _)
      _ ≤ 10 ^ rest.length := Nat.pow_le_pow_right (by decide) (Nat.le_of_lt_succ hlength)
      _ ≤ digitsValue (c :: rest) := pow_le_digitsValue hb' hc

theorem compareNumbers_eq_compare (ha : IsNumeral a) (hb : IsNumeral b) :
    compareNumbers a b = compare (digitsValue a) (digitsValue b) := by
  have ha' := ha.dropWhile (· = '0')
  have hb' := hb.dropWhile (· = '0')
  rw [compareNumbers, byteLength_eq ha', byteLength_eq hb']
  rcases lt_trichotomy (a.dropWhile (· = '0')).length (b.dropWhile (· = '0')).length with
    hlt | heq | hgt
  · rw [compare_lt_iff_lt.2 hlt, compare_lt_iff_lt.2 (digitsValue_lt_of_length_lt ha hb hlt)]
    rfl
  · rw [compare_eq_iff_eq.2 heq, ← digitsValue_dropWhile a, ← digitsValue_dropWhile b,
      compare_digitsValue_of_length_eq ha' hb' heq]
    rfl
  · rw [compare_gt_iff_gt.2 hgt, compare_gt_iff_gt.2 (digitsValue_lt_of_length_lt hb ha hgt)]
    rfl

theorem compareComponents_eq_compareLater (ha : IsNumeral a) (hb : IsNumeral b) :
    compareComponents a b = Release.compareLaterComponents a b := by
  rw [Release.compareLaterComponents, ← compareNumbers_eq_compare ha hb]
  simp only [compareComponents, Bool.or_eq_true, decide_eq_true_eq]
  rfl

theorem compareLater_eq_zipWith (ha : ∀ a ∈ as, IsNumeral a) (hb : ∀ b ∈ bs, IsNumeral b) :
    compareLater as bs =
      ((as.zipWith Release.compareLaterComponents bs).foldr Ordering.then Ordering.eq).then
        (compare as.length bs.length) := by
  induction as generalizing bs with
  | nil =>
    cases bs with
    | nil => rfl
    | cons b bs => exact (compare_lt_iff_lt.2 (Nat.succ_pos _)).symm
  | cons a as ih =>
    cases bs with
    | nil => exact (compare_gt_iff_gt.2 (Nat.succ_pos _)).symm
    | cons b bs =>
      rw [List.forall_mem_cons] at ha hb
      have hlengths : compare (a :: as).length (b :: bs).length = compare as.length bs.length := by
        simp only [Nat.compare_eq_ite_lt, List.length_cons, Nat.add_lt_add_iff_right]
      rw [compareLater, compareComponents_eq_compareLater ha.1 hb.1, ih ha.2 hb.2,
        List.zipWith_cons_cons, List.foldr_cons, Ordering.then_assoc, hlengths]

/-- What of a number counts. -/
def kept (digits : List Char) : List Char :=
  if digitsValue digits < numberBound then digits else []

theorem IsNumeral.kept (h : IsNumeral digits) : IsNumeral (kept digits) := by
  rw [Version.kept]
  split
  · exact h
  · exact nofun

theorem digitsValue_kept_lt (digits : List Char) : digitsValue (kept digits) < numberBound := by
  rw [kept]
  split
  case isTrue h => exact h
  case isFalse => decide

theorem numberValue_eq (h : IsNumeral digits) : numberValue digits = digitsValue (kept digits) := by
  have hall : digits.all Char.isDigit := List.all_eq_true.2 h
  cases digits with
  | nil => rfl
  | cons c digits =>
    rw [numberValue, boundedDigits?, kept, hall]
    simp only [List.isEmpty_cons, Bool.not_true, Bool.or_self, Bool.false_eq_true, if_false]
    split <;> rfl

namespace Release

def counted (r : Release) : Release where
  first := r.first
  others := r.others
  letter := r.letter
  suffixes := r.suffixes.map fun s => (s.1, kept s.2)
  revision := r.revision.filter (digitsValue · < numberBound)
  isNumeral_of_component := r.isNumeral_of_component
  isLetter_of_letter := r.isLetter_of_letter
  isNumeral_of_suffix := by
    rw [List.forall_mem_map]
    exact fun s hs => (r.isNumeral_of_suffix s hs).kept
  isNumeral_of_revision := fun digits hdigits =>
    r.isNumeral_of_revision digits (Option.eq_some_of_filter_eq_some hdigits)

theorem place_eq_suffixKey {s : SuffixKind × List Char} (hs : IsNumeral s.2) :
    place (some (s.1, kept s.2)) = suffixKey ⟨s.1, numberValue s.2⟩ := by
  rw [numberValue_eq hs]
  cases s.1 <;> rfl

theorem places_counted (r : Release) : r.counted.places = suffixKeys r.version.suffixes := by
  have hplaces : ∀ s ∈ r.suffixes, place (some (s.1, kept s.2)) = suffixKey ⟨s.1, numberValue s.2⟩ :=
    fun s hs => place_eq_suffixKey (r.isNumeral_of_suffix s hs)
  simp only [places, counted, suffixKeys, version, List.map_append, List.map_map]
  exact congrArg (· ++ [toLex (4, 0)]) (List.map_congr_left hplaces)

theorem revisionNumber_counted (r : Release) :
    r.counted.revisionNumber = digitsValue (kept (r.revision.getD [])) := by
  change digitsValue ((r.revision.filter (digitsValue · < numberBound)).getD []) = _
  cases hr : r.revision with
  | none => rfl
  | some digits =>
    rw [Option.filter_some, Option.getD_some, kept]
    simp only [decide_eq_true_eq]
    split <;> rfl

theorem revision_version (r : Release) : r.version.revision = r.counted.revisionNumber := by
  rw [revisionNumber_counted]
  cases hr : r.revision with
  | none =>
    have hmissing : numberValue [] = digitsValue (kept []) := rfl
    simp [version, hr, hmissing]
  | some digits => simp [version, hr, numberValue_eq (r.isNumeral_of_revision digits hr).2]

end Release

theorem order_version (r r' : Release) : r.version.order r'.version = r.counted.order r'.counted := by
  have hnumeral (r : Release) : IsNumeral r.first ∧ ∀ a ∈ r.others, IsNumeral a :=
    List.forall_mem_cons.1 fun a ha => (r.isNumeral_of_component a ha).2
  have hcomponents : compareComponentLists r.version.components r'.version.components =
      (compare (digitsValue r.first) (digitsValue r'.first)).then
        (((r.others.zipWith Release.compareLaterComponents r'.others).foldr Ordering.then
          Ordering.eq).then (compare r.others.length r'.others.length)) := by
    rw [← compareNumbers_eq_compare (hnumeral r).1 (hnumeral r').1,
      ← compareLater_eq_zipWith (hnumeral r).2 (hnumeral r').2]
    rfl
  rw [order, hcomponents, compareLetters_eq, compareSuffixes_eq, Release.order,
    r.places_counted, r'.places_counted, r.revision_version, r'.revision_version,
    Ordering.then_assoc, Ordering.then_assoc]
  rfl

namespace Release

theorem bounded_iff : r.Bounded ↔ (∀ s ∈ r.suffixes, digitsValue s.2 < numberBound) ∧
    ∀ digits ∈ r.revision, digitsValue digits < numberBound := by
  simp only [Bounded, numbers, List.mem_append, List.mem_map, Option.mem_toList, or_imp, forall_and,
    forall_exists_index, and_imp, forall_apply_eq_imp_iff₂]
  rfl

theorem counted_bounded (r : Release) : r.counted.Bounded := by
  rw [bounded_iff]
  refine ⟨List.forall_mem_map.2 fun s _ => digitsValue_kept_lt s.2, fun digits hdigits => ?_⟩
  exact of_decide_eq_true (Option.filter_eq_some_iff.1 hdigits).2

theorem Bounded.counted_eq (h : r.Bounded) : r.counted = r := by
  obtain ⟨hsuffixes, hrevision⟩ := bounded_iff.1 h
  refine Release.ext rfl rfl rfl ?_ ?_
  · refine (List.map_congr_left fun s hs => ?_).trans (List.map_id _)
    rw [kept, if_pos (hsuffixes s hs)]
    rfl
  · change r.revision.filter (digitsValue · < numberBound) = r.revision
    cases hr : r.revision with
    | none => rfl
    | some digits => exact Option.filter_some_pos (decide_eq_true (hrevision digits hr))

theorem number_eq_of_place_eq {kind : SuffixKind}
    (h : place (some (kind, a)) = place (some (kind, b))) : digitsValue a = digitsValue b := by
  cases kind <;> exact congrArg Prod.snd h

theorem numbers_eq_of_order_eq (h : r.order r' = .eq) :
    r.places = r'.places ∧ r.revisionNumber = r'.revisionNumber := by
  simp only [order, Ordering.then_eq_eq] at h
  obtain ⟨-, -, -, -, hplaces, hrevision⟩ := h
  exact ⟨Std.LawfulEqCmp.eq_of_compare hplaces, Std.LawfulEqCmp.eq_of_compare hrevision⟩

theorem bounded_of_order_counted (h : r.order r.counted = .eq) : r.Bounded := by
  obtain ⟨hplaces, hrevision⟩ := numbers_eq_of_order_eq h
  rw [bounded_iff]
  constructor
  · simp only [places, counted, List.map_append, List.map_map] at hplaces
    have hsuffixes := List.map_inj_left.1 (List.append_cancel_right hplaces)
    intro s hs
    exact number_eq_of_place_eq (hsuffixes s hs) ▸ digitsValue_kept_lt s.2
  · intro digits hdigits
    rw [revisionNumber_counted, revisionNumber, hdigits] at hrevision
    exact hrevision ▸ digitsValue_kept_lt digits

theorem order_counted_self (r : Release) : r.counted.order r.counted = .eq := by
  rw [← order_version]
  exact order_self (numeric_of_parse? (parse?_text r))

end Release

/--
A version written in ASCII digits is that of one release. It stands to those of other releases as what
counts of it does, and it follows the order of package managers exactly if all its numbers count.
-/
theorem order_exact_iff {s : String} {v : Version} (h : parse? s = some v)
    (hascii : ∀ c ∈ s.toList, isDecimalDigit c → c.isDigit) :
    ∃ r : Release, r.text = s ∧ r.version = v ∧ (∀ x : Release, x.text = s → x = r) ∧
      (∀ r' : Release, parse? r'.text = some r'.version ∧
        v.order r'.version = r.counted.order r'.counted) ∧
      (r.Bounded ↔ ∀ r' : Release, r'.Bounded → v.order r'.version = r.order r') := by
  obtain ⟨r, htext, hunique⟩ := existsUnique_release h hascii
  have hversion : r.version = v := by
    rw [← htext, parse?_text] at h
    exact Option.some_inj.1 h
  subst hversion
  refine ⟨r, htext, rfl, hunique, fun r' => ⟨parse?_text r', order_version r r'⟩, ?_, fun h => ?_⟩
  · intro hr r' hr'
    rw [order_version, hr.counted_eq, hr'.counted_eq]
  · have hself := h r.counted r.counted_bounded
    rw [order_version, r.counted_bounded.counted_eq, r.order_counted_self] at hself
    exact Release.bounded_of_order_counted hself.symm

theorem order_exact_iff_candidate :
    ∃ r r' r'' : Release, r.text = "1.10_rc18446744073709551615" ∧ r'.text = "1.9-r2" ∧
      r''.text = "1.10_rc18446744073709551615-r03" ∧ r.version.order r'.version = .gt ∧
      r.version.order r''.version = .lt := by
  let r : Release := ⟨['1'], [['1', '0']], none, [(.rc, "18446744073709551615".toList)], none,
    by decide, nofun, by decide, by decide⟩
  let r' : Release := ⟨['1'], [['9']], none, [], some ['2'],
    by decide, nofun, by decide, by decide⟩
  let r'' : Release := ⟨['1'], [['1', '0']], none, [(.rc, "18446744073709551615".toList)],
    some ['0', '3'], by decide, nofun, by decide, by decide⟩
  have hr : r.Bounded := by decide +kernel
  have hr' : r'.Bounded := by decide +kernel
  have hr'' : r''.Bounded := by decide +kernel
  have hascii : ∀ c ∈ r.text.toList, isDecimalDigit c → c.isDigit := by
    have hall : r.text.toList.all (fun c => !isDecimalDigit c || c.isDigit) := by decide +kernel
    intro c hc hdigit
    simpa [hdigit] using List.all_eq_true.1 hall c hc
  obtain ⟨x, -, -, hunique, -, hexact⟩ := order_exact_iff (parse?_text r) hascii
  obtain rfl := hunique r rfl
  have horder := hexact.1 hr
  refine ⟨r, r', r'', rfl, rfl, rfl, (horder r' hr').trans ?_, (horder r'' hr'').trans ?_⟩
  · decide +kernel
  · decide +kernel

/-- From the bound on, a revision counts less than the first one. -/
theorem not_order_exact_largeRevision :
    ∃ r r' : Release, r.text = "1-r18446744073709551616" ∧ r'.text = "1-r1" ∧
      parse? r.text = some r.version ∧ parse? r'.text = some r'.version ∧
      r.order r' = .gt ∧ r.version.order r'.version = .lt := by
  let r : Release := ⟨['1'], [], none, [], some "18446744073709551616".toList,
    by decide, nofun, by decide, by decide⟩
  let r' : Release := ⟨['1'], [], none, [], some ['1'], by decide, nofun, by decide, by decide⟩
  exact ⟨r, r', rfl, rfl, parse?_text r, parse?_text r', by decide +kernel, by decide +kernel⟩

end EbuildAudit.Version
