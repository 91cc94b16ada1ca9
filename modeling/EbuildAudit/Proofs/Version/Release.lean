import EbuildAudit.Proofs.Text.Pieces
import EbuildAudit.Version
import Mathlib.Data.List.DropRight

namespace EbuildAudit

open Text

def SuffixKind.name : SuffixKind → List Char
  | .alpha => "alpha".toList
  | .beta => "beta".toList
  | .pre => "pre".toList
  | .rc => "rc".toList
  | .p => "p".toList

namespace Version

def IsNumeral (digits : List Char) : Prop :=
  ∀ c ∈ digits, c.isDigit

instance (digits : List Char) : Decidable (IsNumeral digits) :=
  List.decidableBAll (fun c : Char => c.isDigit) digits

/-- The parts of a version text; a suffix need not have a number, and a number may have any length. -/
@[ext]
structure Release where
  first : List Char
  others : List (List Char)
  letter : Option Char
  suffixes : List (SuffixKind × List Char)
  revision : Option (List Char)
  isNumeral_of_component : ∀ a ∈ first :: others, a ≠ [] ∧ IsNumeral a
  isLetter_of_letter : ∀ c ∈ letter, isLetter c
  isNumeral_of_suffix : ∀ s ∈ suffixes, IsNumeral s.2
  isNumeral_of_revision : ∀ n ∈ revision, n ≠ [] ∧ IsNumeral n

namespace Release

def componentText (r : Release) : List Char :=
  ['.'].intercalate (r.first :: r.others)

def suffixText (s : SuffixKind × List Char) : List Char :=
  s.1.name ++ s.2

def suffixesText (r : Release) : List Char :=
  r.suffixes.flatMap fun s => '_' :: suffixText s

def revisionText (r : Release) : List Char :=
  r.revision.elim [] fun digits => '-' :: 'r' :: digits

def baseText (r : Release) : List Char :=
  r.componentText ++ r.letter.toList ++ r.suffixesText

def chars (r : Release) : List Char :=
  r.baseText ++ r.revisionText

def text (r : Release) : String :=
  String.ofList r.chars

def version (r : Release) : Version where
  text := r.text
  base := String.ofList r.baseText
  components := r.first :: r.others
  letter := r.letter
  suffixes := r.suffixes.map fun s => ⟨s.1, numberValue s.2⟩
  revision := numberValue (r.revision.getD [])

end Release

variable {c : Char} {a b cs rest digits : List Char} {v : Version} {r r' : Release}

theorem isDecimalDigit_of_ascii (hc : c.toNat < 128) : isDecimalDigit c = c.isDigit := by
  have htable : ∀ n < 128, (decimalDigits.boundaries.countP (· ≤ n) % 2 == 1) =
      (decide (48 ≤ n) && decide (n ≤ 57)) := by decide +kernel
  exact htable c.toNat hc

theorem isDecimalDigit_of_isDigit (hc : c.isDigit) : isDecimalDigit c := by
  have hbound := (Char.isDigit_iff_toNat.1 hc).2
  rw [isDecimalDigit_of_ascii (lt_of_le_of_lt hbound (by decide)), hc]

theorem IsNumeral.all (h : IsNumeral digits) : digits.all isDecimalDigit :=
  List.all_eq_true.2 fun c hc => isDecimalDigit_of_isDigit (h c hc)

theorem IsNumeral.not_mem (h : IsNumeral digits) (hc : ¬c.isDigit) : c ∉ digits :=
  fun hmem => hc (h c hmem)

theorem bounds_of_isLetter (hc : isLetter c) : 97 ≤ c.toNat ∧ c.toNat ≤ 122 := by
  simpa [isLetter, Char.le_def, UInt32.le_iff_toNat_le] using hc

theorem not_isComponentChar_of_isLetter (hc : isLetter c) : ¬isComponentChar c := by
  obtain ⟨hlow, hhigh⟩ := bounds_of_isLetter hc
  have hdigit : ¬c.isDigit := by
    rw [Char.isDigit_iff_toNat]
    have : '9'.toNat = 57 := rfl
    omega
  have hdot : c ≠ '.' := by
    rintro rfl
    revert hlow
    decide
  simp [isComponentChar, isDecimalDigit_of_ascii (show c.toNat < 128 by omega), hdigit, hdot]

namespace Release

theorem chars_eq (r : Release) :
    r.chars = r.componentText ++ (r.letter.toList ++ (r.suffixesText ++ r.revisionText)) := by
  simp only [chars, baseText, List.append_assoc]

theorem splitOn_componentText (r : Release) : r.componentText.splitOn '.' = r.first :: r.others :=
  List.splitOn_intercalate '.'
    (fun a ha => (r.isNumeral_of_component a ha).2.not_mem (by decide)) (List.cons_ne_nil _ _)

theorem isComponentChar_of_mem (r : Release) : ∀ c ∈ r.componentText, isComponentChar c := by
  intro c hc
  rcases mem_intercalate hc with rfl | ⟨piece, hpiece, hmem⟩
  · decide
  · have hdigit := (r.isNumeral_of_component piece hpiece).2 c hmem
    simp [isComponentChar, isDecimalDigit_of_isDigit hdigit]

theorem head?_revisionText (r : Release) : ∀ c ∈ r.revisionText.head?, c = '-' := by
  intro c hc
  rw [revisionText] at hc
  cases hr : r.revision with
  | none => simp [hr] at hc
  | some digits => simpa [hr, eq_comm] using hc

theorem head?_suffixesText (r : Release) : ∀ c ∈ r.suffixesText.head?, c = '_' := by
  intro c hc
  rw [suffixesText] at hc
  cases hs : r.suffixes with
  | nil => simp [hs] at hc
  | cons s suffixes => simpa [hs, eq_comm] using hc

theorem head?_afterLetter (r : Release) :
    ∀ c ∈ (r.suffixesText ++ r.revisionText).head?, c = '_' ∨ c = '-' := by
  intro c hc
  have hsuffixes := r.head?_suffixesText
  cases htext : r.suffixesText with
  | nil =>
    rw [htext] at hc
    exact .inr (r.head?_revisionText c hc)
  | cons d rest =>
    rw [htext] at hc hsuffixes
    exact .inl (hsuffixes c hc)

theorem head?_afterComponents (r : Release) :
    ∀ c ∈ (r.letter.toList ++ (r.suffixesText ++ r.revisionText)).head?, ¬isComponentChar c := by
  intro c hc
  cases hl : r.letter with
  | some l =>
    rw [hl] at hc
    obtain rfl := Option.some_inj.1 hc
    exact not_isComponentChar_of_isLetter (r.isLetter_of_letter l hl)
  | none =>
    rw [hl] at hc
    rcases r.head?_afterLetter c hc with rfl | rfl <;> decide

theorem takeLetter_eq (r : Release) :
    takeLetter (r.letter.toList ++ (r.suffixesText ++ r.revisionText)) =
      (r.letter, r.suffixesText ++ r.revisionText) := by
  cases hl : r.letter with
  | some l => exact if_pos (r.isLetter_of_letter l hl)
  | none =>
    have hhead := r.head?_afterLetter
    cases htext : r.suffixesText ++ r.revisionText with
    | nil => rfl
    | cons c rest =>
      rw [htext] at hhead
      refine if_neg ?_
      rcases hhead c rfl with rfl | rfl <;> decide

theorem name_ne_hyphen (kind : SuffixKind) : ∀ c ∈ kind.name, c ≠ '-' ∧ c ≠ '_' ∧ ¬c.isDigit := by
  have hall : kind.name.all (fun c => c != '-' && c != '_' && !c.isDigit) := by
    cases kind <;> decide
  intro c hc
  simpa [and_assoc] using List.all_eq_true.1 hall c hc

theorem suffixText_ne {s : SuffixKind × List Char} (hs : IsNumeral s.2) :
    ∀ c ∈ suffixText s, c ≠ '-' ∧ c ≠ '_' := by
  intro c hc
  rcases List.mem_append.1 hc with hname | hdigit
  · obtain ⟨hhyphen, hlow, -⟩ := name_ne_hyphen s.1 c hname
    exact ⟨hhyphen, hlow⟩
  · have := hs c hdigit
    constructor <;> rintro rfl <;> revert this <;> decide

theorem suffixesText_ne (r : Release) : ∀ c ∈ r.suffixesText, c != '-' := by
  intro c hc
  obtain ⟨s, hs, hmem⟩ := List.mem_flatMap.1 hc
  rcases List.mem_cons.1 hmem with rfl | hmem
  · decide
  · exact bne_iff_ne.2 (suffixText_ne (r.isNumeral_of_suffix s hs) c hmem).1

theorem cut_components (r : Release) :
    r.chars.takeWhile isComponentChar = r.componentText ∧
      r.chars.dropWhile isComponentChar =
        r.letter.toList ++ (r.suffixesText ++ r.revisionText) := by
  rw [chars_eq]
  exact ⟨takeWhile_append_stop r.isComponentChar_of_mem r.head?_afterComponents,
    dropWhile_append_stop r.isComponentChar_of_mem r.head?_afterComponents⟩

theorem cut_suffixes (r : Release) :
    (r.suffixesText ++ r.revisionText).takeWhile (· != '-') = r.suffixesText ∧
      (r.suffixesText ++ r.revisionText).dropWhile (· != '-') = r.revisionText := by
  have hstop : ∀ c ∈ r.revisionText.head?, ¬(c != '-') := by
    intro c hc
    rw [r.head?_revisionText c hc]
    decide
  exact ⟨takeWhile_append_stop r.suffixesText_ne hstop, dropWhile_append_stop r.suffixesText_ne hstop⟩

theorem cut_suffixText {s : SuffixKind × List Char} (hs : IsNumeral s.2) :
    (suffixText s).takeWhile (!·.isDigit) = s.1.name ∧
      (suffixText s).dropWhile (!·.isDigit) = s.2 := by
  have hname : ∀ c ∈ s.1.name, !c.isDigit := by
    intro c hc
    simpa using (name_ne_hyphen s.1 c hc).2.2
  have hdigits : ∀ c ∈ s.2.head?, ¬(!c.isDigit) := by
    intro c hc
    simpa using hs c (List.mem_of_mem_head? hc)
  exact ⟨takeWhile_append_stop hname hdigits, dropWhile_append_stop hname hdigits⟩

theorem mem_suffixNames {entry : List Char × SuffixKind} :
    entry ∈ suffixNames ↔ entry.1 = entry.2.name := by
  obtain ⟨name, kind⟩ := entry
  cases kind <;> simp [suffixNames, SuffixKind.name]

theorem lookup_name (kind : SuffixKind) : suffixNames.lookup kind.name = some kind := by
  cases kind <;> decide

theorem isSome_suffix? :
    (suffix? cs).isSome ↔ ∃ kind : SuffixKind, ∃ digits, cs = kind.name ++ digits ∧
      digits.all isDecimalDigit := by
  rw [suffix?, Option.isSome_map, List.find?_isSome]
  constructor
  · rintro ⟨⟨name, kind⟩, hmem, hmatch⟩
    obtain rfl : name = kind.name := mem_suffixNames.1 hmem
    simp only at hmatch
    split at hmatch
    case h_1 digits hprefix =>
      exact ⟨kind, digits, (List.append_eq_of_isPrefixOf?_eq_some hprefix).symm, hmatch⟩
    case h_2 => cases hmatch
  · rintro ⟨kind, digits, rfl, hdigits⟩
    refine ⟨(kind.name, kind), mem_suffixNames.2 rfl, ?_⟩
    simp only
    rw [List.isPrefixOf?_eq_some_iff_append_eq.2 rfl]
    exact hdigits

theorem suffix?_suffixText {s : SuffixKind × List Char} (hs : IsNumeral s.2) :
    suffix? (suffixText s) = some ⟨s.1, numberValue s.2⟩ := by
  obtain ⟨x, hx⟩ := Option.isSome_iff_exists.1 (isSome_suffix?.2 ⟨s.1, s.2, rfl, hs.all⟩)
  obtain ⟨-, -, rfl⟩ := Option.map_eq_some_iff.1 hx
  obtain ⟨hname, hdigits⟩ := cut_suffixText hs
  rw [suffixText] at hname hdigits ⊢
  rw [hx, hname, hdigits, lookup_name]
  rfl

theorem suffixesText_eq (r : Release) :
    r.suffixesText = (r.suffixes.map suffixText).flatMap ('_' :: ·) := by
  rw [List.flatMap_map]
  rfl

theorem not_mem_suffixText (r : Release) : ∀ piece ∈ r.suffixes.map suffixText, '_' ∉ piece := by
  intro piece hpiece hmem
  obtain ⟨s, hs, rfl⟩ := List.mem_map.1 hpiece
  exact (suffixText_ne (r.isNumeral_of_suffix s hs) '_' hmem).2 rfl

theorem suffixes?_suffixesText (r : Release) :
    suffixes? r.suffixesText = some (r.suffixes.map fun s => ⟨s.1, numberValue s.2⟩) := by
  by_cases hne : r.suffixes = []
  · rw [suffixesText, hne]
    rfl
  · have hmap : r.suffixes.map suffixText ≠ [] := by simpa using hne
    rw [suffixesText_eq, flatMap_separated hmap, suffixes?, List.splitOn_intercalate '_' r.not_mem_suffixText hmap,
      mapM_eq_some_iff, List.forall₂_map_left_iff, List.forall₂_map_right_iff, List.forall₂_same]
    exact fun s hs => suffix?_suffixText (r.isNumeral_of_suffix s hs)

theorem revision?_revisionText (r : Release) :
    revision? r.revisionText = some (r.revision.getD []) := by
  cases hr : r.revision with
  | none => simp [revisionText, hr, revision?]
  | some digits =>
    obtain ⟨hne, hdigits⟩ := r.isNumeral_of_revision digits hr
    simp [revisionText, hr, revision?, hne, hdigits.all]

end Release

theorem ofChars?_chars (r : Release) : ofChars? r.chars = some r.version := by
  obtain ⟨htake, hdrop⟩ := r.cut_components
  obtain ⟨hsuffixes, hrevision⟩ := r.cut_suffixes
  have hcomponents : (r.first :: r.others).any (·.isEmpty) = false := by
    rw [List.any_eq_false]
    intro a ha
    simpa using (r.isNumeral_of_component a ha).1
  have hbase : r.chars.take (r.chars.length - r.revisionText.length) = r.baseText := by
    simp [Release.chars]
  rw [ofChars?, htake, hdrop, r.splitOn_componentText, r.takeLetter_eq]
  simp only [hsuffixes, hrevision, r.suffixes?_suffixesText, r.revision?_revisionText, hcomponents,
    hbase]
  rfl

theorem Release.suffixes_injective (h : r.suffixesText = r'.suffixesText) :
    r.suffixes = r'.suffixes := by
  let read (cs : List Char) : SuffixKind × List Char :=
    ((suffixNames.lookup (cs.takeWhile (!·.isDigit))).getD .p, cs.dropWhile (!·.isDigit))
  have hread (r : Release) : (r.suffixesText.splitOn '_').tail.map read = r.suffixes := by
    rw [suffixesText_eq, splitOn_separated r.not_mem_suffixText, List.tail_cons, List.map_map]
    refine (List.map_congr_left fun s hs => ?_).trans (List.map_id _)
    obtain ⟨hname, hdigits⟩ := cut_suffixText (r.isNumeral_of_suffix s hs)
    simp only [Function.comp_apply, read, hname, hdigits, lookup_name, Option.getD_some, id]
  rw [← hread r, h, hread r']

theorem Release.revisionText_injective (h : r.revisionText = r'.revisionText) :
    r.revision = r'.revision := by
  simp only [revisionText] at h
  cases hr : r.revision <;> cases hr' : r'.revision <;> simp_all

theorem Release.chars_injective (h : r.chars = r'.chars) : r = r' := by
  obtain ⟨htake, hdrop⟩ := r.cut_components
  obtain ⟨htake', hdrop'⟩ := r'.cut_components
  rw [h] at htake hdrop
  have hcomponents := r.splitOn_componentText
  rw [← htake, htake', r'.splitOn_componentText] at hcomponents
  have hletter := r.takeLetter_eq
  rw [← hdrop, hdrop', r'.takeLetter_eq] at hletter
  obtain ⟨hletter, hrest⟩ := Prod.mk.inj hletter
  obtain ⟨hsuffixes, hrevision⟩ := r.cut_suffixes
  obtain ⟨hsuffixes', hrevision'⟩ := r'.cut_suffixes
  rw [← hrest] at hsuffixes hrevision
  obtain ⟨hfirst, hothers⟩ := List.cons.inj hcomponents
  exact Release.ext hfirst.symm hothers.symm hletter.symm
    (suffixes_injective (hsuffixes.symm.trans hsuffixes'))
    (revisionText_injective (hrevision.symm.trans hrevision'))

theorem isNumeral_of_ascii (hascii : ∀ c ∈ cs, isDecimalDigit c → c.isDigit)
    (hdigits : digits.all isDecimalDigit) (hsub : digits ⊆ cs) : IsNumeral digits :=
  fun c hc => hascii c (hsub hc) (List.all_eq_true.1 hdigits c hc)

theorem takeLetter_spec (cs : List Char) :
    (takeLetter cs).1.toList ++ (takeLetter cs).2 = cs ∧ ∀ c ∈ (takeLetter cs).1, isLetter c := by
  cases cs with
  | nil => exact ⟨rfl, nofun⟩
  | cons c cs =>
    rw [takeLetter]
    split
    case isTrue h => simpa using h
    case isFalse => exact ⟨rfl, nofun⟩

theorem exists_pieces {pieces : List (List Char)} {xs : List Suffix}
    (h : List.Forall₂ (fun piece x => suffix? piece = some x) pieces xs)
    (hascii : ∀ piece ∈ pieces, ∀ c ∈ piece, isDecimalDigit c → c.isDigit) :
    ∃ suffixes : List (SuffixKind × List Char),
      suffixes.map Release.suffixText = pieces ∧ ∀ s ∈ suffixes, IsNumeral s.2 := by
  induction h with
  | nil => exact ⟨[], rfl, nofun⟩
  | cons hread _ ih =>
    rw [List.forall_mem_cons] at hascii
    obtain ⟨suffixes, rfl, hnumerals⟩ := ih hascii.2
    obtain ⟨kind, digits, rfl, hdigits⟩ :=
      Release.isSome_suffix?.1 (Option.isSome_of_mem hread)
    refine ⟨(kind, digits) :: suffixes, rfl, List.forall_mem_cons.2 ⟨?_, hnumerals⟩⟩
    exact isNumeral_of_ascii hascii.1 hdigits (List.subset_append_right _ _)

theorem exists_suffixes {xs : List Suffix} (h : suffixes? cs = some xs)
    (hascii : ∀ c ∈ cs, isDecimalDigit c → c.isDigit) :
    ∃ suffixes : List (SuffixKind × List Char),
      cs = (suffixes.map Release.suffixText).flatMap ('_' :: ·) ∧ ∀ s ∈ suffixes, IsNumeral s.2 := by
  rw [suffixes?.eq_def] at h
  split at h
  case h_1 => exact ⟨[], rfl, nofun⟩
  case h_2 cs =>
    have hpieces : ∀ piece ∈ cs.splitOn '_', ∀ c ∈ piece, isDecimalDigit c → c.isDigit :=
      fun piece hpiece c hc => hascii c (List.mem_cons_of_mem _ (of_mem_splitOn hpiece hc).1)
    obtain ⟨suffixes, hmap, hnumerals⟩ := exists_pieces (mapM_eq_some_iff.1 h) hpieces
    refine ⟨suffixes, ?_, hnumerals⟩
    rw [hmap, flatMap_separated (List.splitOn_ne_nil _ _), List.intercalate_splitOn]
  case h_3 => cases h

theorem exists_revision (h : revision? cs = some digits)
    (hascii : ∀ c ∈ cs, isDecimalDigit c → c.isDigit) :
    ∃ revision : Option (List Char), cs = revision.elim [] (fun digits => '-' :: 'r' :: digits) ∧
      ∀ n ∈ revision, n ≠ [] ∧ IsNumeral n := by
  rw [revision?.eq_def] at h
  split at h
  case h_1 => exact ⟨none, rfl, nofun⟩
  case h_2 number =>
    split at h
    case isTrue => cases h
    case isFalse hgood =>
      have hgood : number ≠ [] ∧ number.all isDecimalDigit := by simpa using hgood
      refine ⟨some number, rfl, fun n hn => ?_⟩
      obtain rfl := Option.some_inj.1 hn
      exact ⟨hgood.1, isNumeral_of_ascii hascii hgood.2
        (List.Subset.trans (List.subset_cons_self _ _) (List.subset_cons_self _ _))⟩
  case h_3 => cases h

theorem isNumeral_of_component (hascii : ∀ c ∈ cs, isDecimalDigit c → c.isDigit)
    (ha : a ∈ (cs.takeWhile isComponentChar).splitOn '.') : IsNumeral a := by
  intro c hc
  obtain ⟨hmem, hdot⟩ := of_mem_splitOn ha hc
  have hchar : isComponentChar c := List.mem_takeWhile_imp hmem
  rcases Bool.or_eq_true_iff.1 hchar with hdigit | heq
  · exact hascii c (List.takeWhile_subset _ hmem) hdigit
  · exact absurd (beq_iff_eq.1 heq) hdot

theorem exists_release (h : ofChars? cs = some v)
    (hascii : ∀ c ∈ cs, isDecimalDigit c → c.isDigit) : ∃ r : Release, r.chars = cs := by
  simp only [ofChars?] at h
  obtain ⟨hletter, hisLetter⟩ := takeLetter_spec (cs.dropWhile isComponentChar)
  generalize takeLetter (cs.dropWhile isComponentChar) = after at h hletter hisLetter
  obtain ⟨letter, rest⟩ := after
  have hcut : cs.takeWhile isComponentChar ++ (letter.toList ++ rest) = cs := by
    rw [hletter, List.takeWhile_append_dropWhile]
  have hrest : rest ⊆ cs := by
    rw [← hcut]
    exact List.Subset.trans (List.subset_append_right _ _) (List.subset_append_right _ _)
  split at h
  case isTrue => cases h
  case isFalse hcomponents =>
    split at h
    case h_2 => cases h
    case h_1 xs digits hsuffixes hrevision =>
      obtain ⟨suffixes, hsuffixes, hnumerals⟩ := exists_suffixes hsuffixes fun c hc =>
        hascii c (hrest (List.takeWhile_subset _ hc))
      obtain ⟨revision, hrevision, hnumeral⟩ := exists_revision hrevision fun c hc =>
        hascii c (hrest (List.dropWhile_subset _ hc))
      obtain ⟨first, others, heq⟩ :=
        List.exists_cons_of_ne_nil (List.splitOn_ne_nil '.' (cs.takeWhile isComponentChar))
      have hnumbers : ∀ a ∈ first :: others, a ≠ [] ∧ IsNumeral a := by
        intro a ha
        rw [← heq] at ha
        have hne : ¬a.isEmpty := fun hempty => hcomponents (List.any_eq_true.2 ⟨a, ha, hempty⟩)
        exact ⟨fun hnil => hne (List.isEmpty_iff.2 hnil), isNumeral_of_component hascii ha⟩
      let r : Release := ⟨first, others, letter, suffixes, revision, hnumbers, hisLetter, hnumerals,
        hnumeral⟩
      refine ⟨r, ?_⟩
      have htext : r.suffixesText ++ r.revisionText = rest := by
        rw [Release.suffixesText_eq, ← hsuffixes, Release.revisionText, ← hrevision,
          List.takeWhile_append_dropWhile]
      rw [Release.chars_eq, htext, Release.componentText, ← heq, List.intercalate_splitOn, hcut]

theorem parse?_text (r : Release) : parse? r.text = some r.version := by
  rw [parse?, Release.text, String.toList_ofList, ofChars?_chars]

theorem existsUnique_release {s : String} (h : parse? s = some v)
    (hascii : ∀ c ∈ s.toList, isDecimalDigit c → c.isDigit) : ∃! r : Release, r.text = s := by
  obtain ⟨r, hr⟩ := exists_release h hascii
  refine ⟨r, (congrArg String.ofList hr).trans String.ofList_toList, fun r' hr' => ?_⟩
  have hchars : r'.chars = s.toList := String.toList_ofList.symm.trans (congrArg String.toList hr')
  exact Release.chars_injective (hchars.trans hr.symm)

end Version

end EbuildAudit
