import EbuildAudit.Text.Basic
import Mathlib.Data.List.Forall2

namespace EbuildAudit.Text

variable {sep c : Char} {piece cs rest : List Char} {p : Char → Bool}

theorem of_mem_splitOn (h : piece ∈ cs.splitOn sep) (hc : c ∈ piece) : c ∈ cs ∧ c ≠ sep := by
  induction cs generalizing piece with
  | nil =>
    rw [List.splitOn_nil, List.mem_singleton] at h
    subst h
    cases hc
  | cons d cs ih =>
    rw [List.splitOn_cons_eq_if_modifyHead] at h
    split at h
    case isTrue =>
      rcases List.mem_cons.1 h with rfl | h
      · cases hc
      · exact (ih h hc).imp_left (List.mem_cons_of_mem d)
    case isFalse hd =>
      cases hpieces : cs.splitOn sep with
      | nil => exact absurd hpieces (List.splitOn_ne_nil _ _)
      | cons first pieces =>
        rw [hpieces] at h ih
        rcases List.mem_cons.1 h with rfl | h
        · rcases List.mem_cons.1 hc with rfl | hc
          · exact ⟨List.mem_cons_self, fun heq => hd (beq_iff_eq.2 heq)⟩
          · exact (ih List.mem_cons_self hc).imp_left (List.mem_cons_of_mem d)
        · exact (ih (List.mem_cons_of_mem _ h) hc).imp_left (List.mem_cons_of_mem d)

theorem mem_intercalate {pieces : List (List Char)} (hc : c ∈ [sep].intercalate pieces) :
    c = sep ∨ ∃ piece ∈ pieces, c ∈ piece := by
  induction pieces with
  | nil => cases hc
  | cons piece pieces ih =>
    cases pieces with
    | nil =>
      rw [List.intercalate_singleton] at hc
      exact .inr ⟨piece, List.mem_cons_self, hc⟩
    | cons next pieces =>
      rw [List.intercalate_cons_cons, List.append_assoc] at hc
      rcases List.mem_append.1 hc with hc | hc
      · exact .inr ⟨piece, List.mem_cons_self, hc⟩
      · rcases List.mem_cons.1 hc with rfl | hc
        · exact .inl rfl
        · refine (ih hc).imp_right ?_
          rintro ⟨other, hother, hmem⟩
          exact ⟨other, List.mem_cons_of_mem piece hother, hmem⟩

theorem of_mem_toList_of_mem_splitOn {s part : String} (h : part ∈ splitOn sep s)
    (hc : c ∈ part.toList) : c ∈ s.toList ∧ c ≠ sep := by
  obtain ⟨piece, hpiece, rfl⟩ := List.mem_map.1 h
  rw [String.toList_ofList] at hc
  exact of_mem_splitOn hpiece hc

theorem not_mem_toList_of_mem_splitOn {s part : String} (h : part ∈ splitOn sep s) :
    sep ∉ part.toList :=
  fun hmem => (of_mem_toList_of_mem_splitOn h hmem).2 rfl

theorem splitOn_joinWith {mark : String} {parts : List String} (hmark : mark.toList = [sep])
    (h : ∀ part ∈ parts, sep ∉ part.toList) (hne : parts ≠ []) :
    splitOn sep (joinWith mark parts) = parts := by
  have hchars : (joinWith mark parts).toList = [sep].intercalate (parts.map String.toList) := by
    rw [← hmark]
    exact String.toList_intercalate
  have hpieces : ∀ piece ∈ parts.map String.toList, sep ∉ piece := by simpa using h
  rw [splitOn, hchars, List.splitOn_intercalate sep hpieces (by simpa using hne), List.map_map]
  simp

theorem flatMap_separated {pieces : List (List Char)} (hne : pieces ≠ []) :
    pieces.flatMap (sep :: ·) = sep :: [sep].intercalate pieces := by
  induction pieces with
  | nil => exact absurd rfl hne
  | cons piece pieces ih =>
    cases pieces with
    | nil => simp
    | cons next pieces =>
      rw [List.flatMap_cons, ih (List.cons_ne_nil _ _), List.intercalate_cons_cons,
        List.append_assoc]
      rfl

theorem splitOn_separated {pieces : List (List Char)} (h : ∀ piece ∈ pieces, sep ∉ piece) :
    (pieces.flatMap (sep :: ·)).splitOn sep = [] :: pieces := by
  cases pieces with
  | nil => exact List.splitOn_nil sep
  | cons piece pieces =>
    rw [flatMap_separated (List.cons_ne_nil _ _), List.splitOn_cons_eq_if_modifyHead,
      if_pos (beq_self_eq_true sep), List.splitOn_intercalate sep h (List.cons_ne_nil _ _)]

theorem takeWhile_append_stop (hpiece : ∀ c ∈ piece, p c) (hrest : ∀ c ∈ rest.head?, ¬p c) :
    (piece ++ rest).takeWhile p = piece := by
  rw [List.takeWhile_append_of_pos hpiece]
  cases rest with
  | nil => simp
  | cons c rest => rw [List.takeWhile_cons_of_neg (hrest c rfl), List.append_nil]

theorem dropWhile_append_stop (hpiece : ∀ c ∈ piece, p c) (hrest : ∀ c ∈ rest.head?, ¬p c) :
    (piece ++ rest).dropWhile p = rest := by
  rw [List.dropWhile_append_of_pos hpiece]
  cases rest with
  | nil => rfl
  | cons c rest => exact List.dropWhile_cons_of_neg (hrest c rfl)

theorem cutAt?_singleton_eq_none : cutAt? [sep] cs = none ↔ sep ∉ cs := by
  induction cs with
  | nil => exact iff_of_true rfl List.not_mem_nil
  | cons d cs ih =>
    by_cases hd : sep = d
    · subst hd
      simp [cutAt?, List.isPrefixOf?]
    · simp [cutAt?, List.isPrefixOf?, hd, ih]

theorem cutAt?_singleton (h : sep ∉ piece) :
    cutAt? [sep] (piece ++ sep :: rest) = some (piece, rest) := by
  induction piece with
  | nil => simp [cutAt?, List.isPrefixOf?]
  | cons d piece ih =>
    rw [List.mem_cons, not_or] at h
    obtain ⟨hd, hpiece⟩ := h
    simp [cutAt?, List.isPrefixOf?, hd, ih hpiece]

theorem cutAt?_eq_some {mark before after : List Char} (hmark : mark ≠ [])
    (h : cutAt? mark cs = some (before, after)) :
    cs = before ++ (mark ++ after) ∧ cutAt? mark before = none := by
  induction cs generalizing before with
  | nil => simp [cutAt?, hmark] at h
  | cons d cs ih =>
    rw [cutAt?] at h
    split at h
    case h_1 remainder hbegins =>
      cases h
      refine ⟨(List.isPrefixOf?_eq_some_iff_append_eq.1 hbegins).symm, ?_⟩
      simp [cutAt?, hmark]
    case h_2 hbegins =>
      obtain ⟨⟨before', after'⟩, hcut, heq⟩ := Option.map_eq_some_iff.1 h
      cases heq
      obtain ⟨rfl, hnone⟩ := ih hcut
      refine ⟨rfl, ?_⟩
      have hshorter : mark.isPrefixOf? (d :: before') = none := by
        refine Option.eq_none_iff_forall_ne_some.2 fun remainder hsome => ?_
        have hstart := List.isPrefixOf?_eq_some_iff_append_eq.1 hsome
        have hlonger : mark.isPrefixOf? (d :: (before' ++ (mark ++ after))) =
            some (remainder ++ (mark ++ after)) :=
          List.isPrefixOf?_eq_some_iff_append_eq.2 (by rw [← List.append_assoc, hstart]; rfl)
        rw [hbegins] at hlonger
        cases hlonger
      rw [cutAt?, hshorter, hnone]
      rfl

theorem isPrefixOf?_eq_none_iff {mark : List Char} : mark.isPrefixOf? cs = none ↔ ¬mark <+: cs := by
  rw [← not_iff_not, not_not, ← ne_eq, Option.ne_none_iff_exists']
  exact exists_congr fun rest => List.isPrefixOf?_eq_some_iff_append_eq

theorem cutAt?_eq_none_iff {mark : List Char} (hmark : mark ≠ []) :
    cutAt? mark cs = none ↔ ¬mark <:+: cs := by
  induction cs with
  | nil => simp [cutAt?, hmark]
  | cons c cs ih =>
    rw [cutAt?, List.infix_cons_iff, not_or, ← ih, ← isPrefixOf?_eq_none_iff]
    cases mark.isPrefixOf? (c :: cs) <;> simp

theorem isPrefixOf?_append {mark : List Char} : mark.isPrefixOf? (mark ++ rest) = some rest :=
  List.isPrefixOf?_eq_some_iff_append_eq.2 rfl

theorem cutAt?_mark {mark : List Char} (hmark : mark ≠ []) :
    cutAt? mark (mark ++ rest) = some ([], rest) := by
  have hself : mark.isPrefixOf? (mark ++ rest) = some rest := isPrefixOf?_append
  obtain ⟨m, ms, rfl⟩ := List.exists_cons_of_ne_nil hmark
  rw [List.cons_append] at hself ⊢
  rw [cutAt?, hself]

theorem cutAt?_append {mark before after : List Char} (hmark : mark ≠ [])
    (h : ¬mark <:+: before ++ mark.dropLast) :
    cutAt? mark (before ++ (mark ++ after)) = some (before, after) := by
  induction before with
  | nil => exact cutAt?_mark hmark
  | cons c before ih =>
    rw [List.cons_append, List.infix_cons_iff, not_or] at h
    have hbegins : ¬mark <+: c :: (before ++ (mark ++ after)) := by
      refine fun hprefix => h.1 (List.prefix_of_prefix_length_le hprefix ?_ ?_)
      · exact List.cons_prefix_cons.2 ⟨rfl, (List.prefix_append_right_inj _).2
          ((List.dropLast_prefix mark).trans (List.prefix_append _ _))⟩
      · have hpos := List.length_pos_iff.2 hmark
        simp only [List.length_cons, List.length_append, List.length_dropLast]
        omega
    rw [List.cons_append, cutAt?, isPrefixOf?_eq_none_iff.2 hbegins, ih h.2]
    rfl

theorem trimWhile_eq_self (h : ∀ c ∈ cs, ¬p c) : trimWhile p cs = cs := by
  have hdrop (cs : List Char) (h : ∀ c ∈ cs, ¬p c) : cs.dropWhile p = cs := by
    cases cs with
    | nil => rfl
    | cons c cs => exact List.dropWhile_cons_of_neg (h c List.mem_cons_self)
  rw [trimWhile, dropEndWhile, hdrop cs h, hdrop cs.reverse (by simpa using h), List.reverse_reverse]

theorem words_intercalate {parts : List String} (hne : ∀ part ∈ parts, part ≠ "")
    (h : ∀ part ∈ parts, ∀ c ∈ part.toList, isBlank c = false) :
    words (String.ofList ([' '].intercalate (parts.map String.toList))) = parts := by
  rw [words, String.toList_ofList]
  induction parts with
  | nil => rfl
  | cons part parts ih =>
    rw [List.forall_mem_cons] at hne h
    cases parts with
    | nil => simp [List.splitOnP_eq_singleton h.1, hne.1]
    | cons next parts =>
      have hspace : isBlank ' ' = true := by decide
      have hsplit (rest : List Char) : (part.toList ++ ' ' :: rest).splitOnP isBlank =
          part.toList :: rest.splitOnP isBlank :=
        List.splitOnP_append_cons_of_forall_mem h.1 ' ' hspace rest
      rw [List.map_cons, List.map_cons, List.intercalate_cons_cons, List.append_assoc,
        List.singleton_append, hsplit, List.filter_cons_of_pos (by simp [hne.1]), List.map_cons,
        String.ofList_toList]
      exact congrArg (part :: ·) (ih hne.2 h.2)

theorem toNat_lt_of_isAlphanum (hc : c.isAlphanum) : c.toNat < 128 := by
  have hranges : (decide (c.val ≥ 'A'.val ∧ c.val ≤ 'Z'.val) ||
      c.val ≥ 'a'.val && c.val ≤ 'z'.val || c.val ≥ '0'.val && c.val ≤ '9'.val) = true := hc
  simp only [Bool.or_eq_true, Bool.and_eq_true, decide_eq_true_eq, UInt32.le_iff_toNat_le,
    ge_iff_le] at hranges
  have hval : c.toNat = c.val.toNat := rfl
  have hupper : 'Z'.val.toNat = 90 := rfl
  have hlower : 'z'.val.toNat = 122 := rfl
  have hdigit : '9'.val.toNat = 57 := rfl
  omega

theorem not_isBlank_of_isAlphanum (hc : c.isAlphanum) : ¬isBlank c := by
  have htable : ∀ n < 128, (Char.ofNat n).isAlphanum → ¬isBlank (Char.ofNat n) := by
    decide +kernel
  have h := htable c.toNat (toNat_lt_of_isAlphanum hc)
  rw [Char.ofNat_toNat] at h
  exact h hc

theorem stripStart?_eq_some_iff {start s remainder : String} :
    stripStart? start s = some remainder ↔ s = start ++ remainder := by
  simp only [stripStart?, Option.map_eq_some_iff, List.isPrefixOf?_eq_some_iff_append_eq]
  constructor
  · rintro ⟨cs, hcs, rfl⟩
    exact String.toList_inj.1 (by simp [hcs])
  · rintro rfl
    exact ⟨remainder.toList, String.toList_append.symm, String.ofList_toList⟩

theorem stripEnd?_eq_some_iff {finish s remainder : String} :
    stripEnd? finish s = some remainder ↔ s = remainder ++ finish := by
  simp only [stripEnd?, Option.map_eq_some_iff, List.isPrefixOf?_eq_some_iff_append_eq]
  constructor
  · rintro ⟨cs, hcs, rfl⟩
    exact String.toList_inj.1 (List.reverse_injective (by simp [hcs]))
  · rintro rfl
    exact ⟨remainder.toList.reverse, by simp, by simp⟩

theorem mapM_eq_some_iff {α β : Type} {f : α → Option β} {l : List α} {xs : List β} :
    l.mapM f = some xs ↔ List.Forall₂ (fun a x => f a = some x) l xs := by
  induction l generalizing xs with
  | nil =>
    rw [List.mapM_nil, List.forall₂_nil_left_iff]
    exact Option.some_inj.trans eq_comm
  | cons a l ih =>
    simp only [List.mapM_cons, Option.bind_eq_bind, Option.bind_eq_some_iff,
      List.forall₂_cons_left_iff, ih]
    constructor
    · rintro ⟨x, hx, xs', hxs, heq⟩
      exact ⟨x, xs', hx, hxs, (Option.some_inj.1 heq).symm⟩
    · rintro ⟨x, xs', hx, hxs, rfl⟩
      exact ⟨x, hx, xs', hxs, rfl⟩

theorem exists_of_mem_mapM {α β : Type} {f : α → Option β} {l : List α} {xs : List β} {x : β}
    (h : l.mapM f = some xs) (hx : x ∈ xs) : ∃ a ∈ l, f a = some x := by
  have hread := mapM_eq_some_iff.1 h
  clear h
  induction hread with
  | nil => cases hx
  | cons hfirst _ ih =>
    rcases List.mem_cons.1 hx with rfl | hx
    · exact ⟨_, List.mem_cons_self, hfirst⟩
    · obtain ⟨a, ha, hax⟩ := ih hx
      exact ⟨a, List.mem_cons_of_mem _ ha, hax⟩

end EbuildAudit.Text
