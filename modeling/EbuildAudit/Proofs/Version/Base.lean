import EbuildAudit.Proofs.Version.Release

namespace EbuildAudit

namespace Text

variable {p : Char → Bool} {cs rest : List Char}

theorem takeWhile_append_of_head? (hrest : ∀ c ∈ rest.head?, ¬p c) :
    (cs ++ rest).takeWhile p = cs.takeWhile p := by
  induction cs with
  | nil => exact takeWhile_append_stop nofun hrest
  | cons c cs ih => simp only [List.cons_append, List.takeWhile_cons, ih]

theorem dropWhile_append_of_head? (hrest : ∀ c ∈ rest.head?, ¬p c) :
    (cs ++ rest).dropWhile p = cs.dropWhile p ++ rest := by
  induction cs with
  | nil => exact dropWhile_append_stop nofun hrest
  | cons c cs ih =>
    simp only [List.cons_append, List.dropWhile_cons, ih]
    split <;> rfl

end Text

namespace Version

open Text

def unrevised (v : Version) : Version :=
  { v with text := v.base, revision := 0 }

variable {cs base revision rest digits : List Char} {s t : String}
  {v w : Version}

theorem takeLetter_append (hrest : ∀ c ∈ rest.head?, ¬isLetter c) :
    takeLetter (cs ++ rest) = ((takeLetter cs).1, (takeLetter cs).2 ++ rest) := by
  cases cs with
  | nil =>
    cases rest with
    | nil => rfl
    | cons c rest => exact if_neg (hrest c rfl)
  | cons c cs =>
    simp only [List.cons_append, takeLetter]
    split <;> rfl

theorem revision?_eq_some (h : revision? cs = some digits) :
    (cs = [] ∧ digits = []) ∨
      (cs = '-' :: 'r' :: digits ∧ digits ≠ [] ∧ digits.all isDecimalDigit) := by
  rw [revision?.eq_def] at h
  split at h
  case h_1 =>
    cases h
    exact .inl ⟨rfl, rfl⟩
  case h_2 =>
    obtain ⟨hgood, heq⟩ := Option.ite_none_left_eq_some.1 h
    cases heq
    exact .inr ⟨rfl, by simpa using hgood⟩
  case h_3 => cases h

theorem hyphen_not_mem_rest (hbase : '-' ∉ base) :
    ∀ c ∈ (takeLetter (base.dropWhile isComponentChar)).2, c != '-' := by
  have hcut := (takeLetter_spec (base.dropWhile isComponentChar)).1
  intro c hc
  have hmem : c ∈ base := by
    refine List.dropWhile_subset isComponentChar ?_
    rw [← hcut]
    exact List.mem_append_right _ hc
  exact bne_iff_ne.2 fun heq => hbase (heq ▸ hmem)

theorem ofChars?_append (hbase : '-' ∉ base) (hrevision : ∀ c ∈ revision.head?, c = '-') :
    ofChars? (base ++ revision) = (ofChars? base).bind fun b => (revision? revision).map fun digits =>
      { b with
        text := String.ofList (base ++ revision)
        base := String.ofList base
        revision := numberValue digits } := by
  have hcomponent : ∀ c ∈ revision.head?, ¬isComponentChar c := by
    intro c hc
    rw [hrevision c hc]
    decide
  have hletter : ∀ c ∈ revision.head?, ¬isLetter c := by
    intro c hc
    rw [hrevision c hc]
    decide
  have hhyphen : ∀ c ∈ revision.head?, ¬(c != '-') := by
    intro c hc
    rw [hrevision c hc]
    decide
  have hnone : revision? [] = some [] := rfl
  have hrest := hyphen_not_mem_rest hbase
  rw [ofChars?, ofChars?, takeWhile_append_of_head? hcomponent,
    dropWhile_append_of_head? hcomponent, takeLetter_append hletter]
  generalize takeLetter (base.dropWhile isComponentChar) = after at hrest ⊢
  obtain ⟨letter, rest⟩ := after
  have htake : rest.takeWhile (· != '-') = rest := List.takeWhile_eq_self_iff.2 hrest
  have hdrop : rest.dropWhile (· != '-') = [] := List.dropWhile_eq_nil_iff.2 hrest
  simp only [takeWhile_append_stop hrest hhyphen, dropWhile_append_stop hrest hhyphen, htake, hdrop,
    List.length_append, Nat.add_sub_cancel, List.take_left', List.length_nil, Nat.sub_zero,
    List.take_length, hnone]
  split
  case isTrue => rfl
  case isFalse => cases suffixes? rest <;> cases revision? revision <;> rfl

theorem text_of_ofChars? (h : ofChars? cs = some v) : v.text.toList = cs := by
  simp only [ofChars?] at h
  split at h
  · cases h
  · split at h
    · cases h
      exact String.toList_ofList
    · cases h

theorem text_of_parse? (h : parse? s = some v) : v.text = s :=
  String.toList_inj.1 (text_of_ofChars? h)

theorem component_ne_nil (h : ofChars? cs = some v) :
    ∀ a ∈ (cs.takeWhile isComponentChar).splitOn '.', a ≠ [] := by
  simp only [ofChars?] at h
  split at h
  case isTrue => cases h
  case isFalse hany =>
    intro a ha hnil
    exact hany (List.any_eq_true.2 ⟨a, ha, by simp [hnil]⟩)

theorem exists_head (h : ofChars? cs = some v) : ∃ c rest, cs = c :: rest ∧ isDecimalDigit c := by
  have hcomponents := component_ne_nil h
  cases cs with
  | nil => simp at hcomponents
  | cons c rest =>
    refine ⟨c, rest, rfl, ?_⟩
    by_contra hc
    by_cases hdot : c = '.'
    · subst hdot
      rw [List.takeWhile_cons_of_pos (by decide), List.splitOn_cons_eq_if_modifyHead,
        if_pos (beq_self_eq_true _)] at hcomponents
      exact hcomponents [] List.mem_cons_self rfl
    · have hcomponent : ¬isComponentChar c := by simp [isComponentChar, hc, hdot]
      rw [List.takeWhile_cons_of_neg hcomponent, List.splitOn_nil] at hcomponents
      exact hcomponents [] List.mem_cons_self rfl

theorem exists_base (h : ofChars? cs = some v) :
    ∃ base revision digits, cs = base ++ revision ∧ '-' ∉ base ∧ revision? revision = some digits ∧
      v.base = String.ofList base ∧ v.revision = numberValue digits ∧
      ofChars? base = some v.unrevised := by
  have hcut := List.takeWhile_append_dropWhile (p := (· != '-')) (l := cs)
  have hbase : '-' ∉ cs.takeWhile (· != '-') := fun hmem => by
    simpa using List.mem_takeWhile_imp hmem
  have hrevision : ∀ c ∈ (cs.dropWhile (· != '-')).head?, c = '-' := by
    intro c hc
    have := List.head?_dropWhile_not (p := (· != '-')) cs
    rw [Option.mem_def.1 hc] at this
    simpa using this
  generalize cs.takeWhile (· != '-') = base at hcut hbase
  generalize cs.dropWhile (· != '-') = revision at hcut hrevision
  subst hcut
  rw [ofChars?_append hbase hrevision] at h
  obtain ⟨b, hb, h⟩ := Option.bind_eq_some_iff.1 h
  obtain ⟨digits, hdigits, rfl⟩ := Option.map_eq_some_iff.1 h
  have halone := @ofChars?_append base [] hbase (by simp)
  rw [List.append_nil, hb] at halone
  exact ⟨base, revision, digits, rfl, hbase, hdigits, rfl, rfl, hb.trans halone⟩

theorem parse?_base (h : parse? s = some v) :
    parse? v.base = some v.unrevised ∧ '-' ∉ v.base.toList := by
  obtain ⟨base, -, -, -, hbase, -, heq, -, hread⟩ := exists_base h
  rw [parse?, heq, String.toList_ofList]
  exact ⟨hread, hbase⟩

theorem unrevised_eq_of_base_eq (hv : parse? t = some v) (hw : parse? s = some w)
    (h : v.base = w.base) : v.unrevised = w.unrevised := by
  have hread := (parse?_base hv).1
  rw [h, (parse?_base hw).1] at hread
  exact (Option.some_inj.1 hread).symm

theorem base_eq_iff (hv : parse? t = some v) (hw : parse? s = some w) :
    v.base = w.base ↔ t = w.base ∨ ∃ digits, t = w.base ++ "-r" ++ digits := by
  obtain ⟨hread, hhyphen⟩ := parse?_base hw
  constructor
  · intro h
    obtain ⟨base, revision, digits, htext, -, hrevision, heq, -⟩ := exists_base hv
    have hbase : w.base.toList = base := by rw [← h, heq, String.toList_ofList]
    rcases revision?_eq_some hrevision with ⟨rfl, -⟩ | ⟨rfl, -, -⟩
    · exact .inl (String.toList_inj.1 (by rw [htext, hbase, List.append_nil]))
    · refine .inr ⟨String.ofList digits, String.toList_inj.1 ?_⟩
      simp [htext, hbase]
  · rintro (rfl | ⟨digits, rfl⟩)
    · rw [hread] at hv
      cases hv
      rfl
    · have htext : (w.base ++ "-r" ++ digits).toList =
          w.base.toList ++ '-' :: 'r' :: digits.toList := by simp
      rw [parse?, htext, ofChars?_append hhyphen (by simp)] at hv
      obtain ⟨b, -, hv⟩ := Option.bind_eq_some_iff.1 hv
      obtain ⟨-, -, rfl⟩ := Option.map_eq_some_iff.1 hv
      exact String.ofList_toList

end Version

end EbuildAudit
