import EbuildAudit.Proofs.Version.Base

/-!
Names of packages with a version. The version is looked for from the right, but no text can be cut
in two ways: the only hyphen in a version is that of the revision, and a revision alone does not
begin with a digit. So it does not matter which hyphens and digits the name has.
-/

namespace EbuildAudit.Version

open Text

variable {front front' version version' middle cs text base rest : List Char} {s : String} {v v' : Version}

theorem exists_eq_append_cons {sep : Char} (hbase : sep ∉ base)
    (h : front ++ sep :: text = base ++ rest) : ∃ tail, rest = tail ++ sep :: text := by
  rcases List.append_eq_append_iff.1 h with ⟨tail, rfl, htail⟩ | ⟨tail, rfl, htail⟩
  · cases tail with
    | nil => exact ⟨[], htail.symm⟩
    | cons c tail =>
      cases htail
      exact absurd (List.mem_append_right _ List.mem_cons_self) hbase
  · exact ⟨tail, htail⟩

theorem ofChars?_after_hyphen (h : ofChars? (front ++ '-' :: text) = some v) :
    ofChars? text = none := by
  obtain ⟨base, revision, digits, heq, hbase, hrevision, -⟩ := exists_base h
  obtain ⟨tail, htail⟩ := exists_eq_append_cons hbase heq
  by_contra hsome
  obtain ⟨w, hw⟩ := Option.ne_none_iff_exists'.1 hsome
  obtain ⟨c, rest, rfl, hc⟩ := exists_head hw
  rcases revision?_eq_some hrevision with ⟨rfl, -⟩ | ⟨rfl, -, hall⟩
  · simp at htail
  · cases tail with
    | nil =>
      cases htail
      revert hc
      decide +kernel
    | cons d tail =>
      obtain ⟨-, htail⟩ := List.cons.inj htail
      have hmem : '-' ∈ 'r' :: digits := by simp [htail]
      rcases List.mem_cons.1 hmem with heq | hdigit
      · cases heq
      · have := List.all_eq_true.1 hall '-' hdigit
        revert this
        decide +kernel

/-- No text is a name and a version in two ways. -/
theorem split_unique (h : front ++ '-' :: version = front' ++ '-' :: version')
    (hv : ofChars? version = some v) (hv' : ofChars? version' = some v') :
    front = front' ∧ version = version' := by
  rcases List.append_eq_append_iff.1 h with ⟨tail, rfl, htail⟩ | ⟨tail, rfl, htail⟩
  · cases tail with
    | nil =>
      cases htail
      exact ⟨(List.append_nil _).symm, rfl⟩
    | cons d tail =>
      cases htail
      rw [ofChars?_after_hyphen hv] at hv'
      cases hv'
  · cases tail with
    | nil =>
      cases htail
      exact ⟨List.append_nil _, rfl⟩
    | cons d tail =>
      cases htail
      rw [ofChars?_after_hyphen hv'] at hv
      cases hv

theorem of_splitFrom (h : splitFrom cs text = some (front, v)) :
    cs.reverse ++ text = front ++ '-' :: v.text.toList ∧ front ≠ [] ∧
      parse? v.text = some v := by
  induction cs, text using splitFrom.induct with
  | case1 => cases h
  | case2 text rest v' hv =>
    simp only [splitFrom, hv] at h
    cases h
    obtain ⟨hne, hv⟩ := Option.ite_none_left_eq_some.1 hv
    have htext := text_of_ofChars? hv
    refine ⟨?_, by simpa using hne, ?_⟩
    · rw [htext, List.reverse_cons, List.append_assoc]
      rfl
    · rw [parse?, htext, hv]
  | case3 text rest hv ih =>
    simp only [splitFrom, hv] at h
    rw [← (ih h).1, List.reverse_cons, List.append_assoc]
    exact ⟨rfl, (ih h).2⟩
  | case4 text c rest hc ih =>
    simp only [splitFrom] at h
    rw [← (ih h).1, List.reverse_cons, List.append_assoc]
    exact ⟨rfl, (ih h).2⟩

theorem isSome_splitFrom (hcs : cs = middle ++ '-' :: front) (hfront : front ≠ [])
    (h : (ofChars? (middle.reverse ++ text)).isSome) : (splitFrom cs text).isSome := by
  induction cs, text using splitFrom.induct generalizing middle with
  | case1 => simp at hcs
  | case2 text rest v' hv => simp only [splitFrom, hv, Option.isSome_some]
  | case3 text rest hv ih =>
    simp only [splitFrom, hv]
    cases middle with
    | nil =>
      cases hcs
      rw [if_neg (by simpa using hfront)] at hv
      simp [hv] at h
    | cons d middle =>
      cases hcs
      exact ih rfl (by simpa using h)
  | case4 text c rest hc ih =>
    simp only [splitFrom]
    cases middle with
    | nil =>
      cases hcs
      exact absurd rfl hc
    | cons d middle =>
      cases hcs
      exact ih rfl (by simpa using h)

theorem toList_join (name version : String) :
    (name ++ "-" ++ version).toList = name.toList ++ '-' :: version.toList := by
  rw [String.toList_append, String.toList_append, List.append_assoc]
  rfl

theorem of_splitPackage? {name : String} (h : splitPackage? s = some (name, v)) :
    s = name ++ "-" ++ v.text ∧ name ≠ "" ∧ parse? v.text = some v := by
  obtain ⟨⟨front, w⟩, hfrom, heq⟩ := Option.map_eq_some_iff.1 h
  cases heq
  obtain ⟨htext, hne, hparse⟩ := of_splitFrom hfrom
  refine ⟨String.toList_inj.1 ?_, fun hempty => hne ?_, hparse⟩
  · rw [toList_join, String.toList_ofList]
    simpa using htext
  · rw [← String.toList_ofList (l := front), hempty]
    rfl

theorem splitPackage?_join {name version : String} (hname : name ≠ "")
    (h : parse? version = some v) : splitPackage? (name ++ "-" ++ version) = some (name, v) := by
  have hfront : name.toList.reverse ≠ [] := by simpa using hname
  have hcs : (name ++ "-" ++ version).toList.reverse =
      version.toList.reverse ++ '-' :: name.toList.reverse := by simp
  have hread : (ofChars? (version.toList.reverse.reverse ++ [])).isSome := by
    rw [List.reverse_reverse, List.append_nil]
    exact Option.isSome_of_mem h
  obtain ⟨⟨front, w⟩, hfrom⟩ := Option.isSome_iff_exists.1 (isSome_splitFrom hcs hfront hread)
  have hsplit : splitPackage? (name ++ "-" ++ version) = some (String.ofList front, w) :=
    Option.map_eq_some_iff.2 ⟨_, hfrom, rfl⟩
  obtain ⟨htext, -, hparse⟩ := of_splitPackage? hsplit
  have heq := congrArg String.toList htext
  rw [toList_join, toList_join] at heq
  obtain ⟨hfront, hversion⟩ := split_unique heq h hparse
  rw [← String.toList_inj.1 hversion, h] at hparse
  rw [hsplit, String.toList_inj.1 hfront, Option.some_inj.1 hparse]

/--
The split of a text is the one way to take it apart into a name and a version: it is found if there
is one, with or without a revision and whatever hyphens and digits the name has, and there are never
two.
-/
theorem splitPackage?_exact (s : String) :
    (∀ name v, splitPackage? s = some (name, v) ↔
        s = name ++ "-" ++ v.text ∧ name ≠ "" ∧ parse? v.text = some v) ∧
      (∀ name version v, name ≠ "" → parse? version = some v →
        splitPackage? (name ++ "-" ++ version) = some (name, v) ∧ v.text = version) ∧
      (splitPackage? s = none ↔
        ∀ name version, s = name ++ "-" ++ version → name ≠ "" → parse? version = none) ∧
      ∀ name version name' version' v v', name ++ "-" ++ version = name' ++ "-" ++ version' →
        parse? version = some v → parse? version' = some v' →
          name = name' ∧ version = version' := by
  refine ⟨fun name v => ⟨of_splitPackage?, ?_⟩, fun name version v hname hparse => ?_, ?_,
    fun name version name' version' v v' h hv hv' => ?_⟩
  · rintro ⟨rfl, hname, hparse⟩
    exact splitPackage?_join hname hparse
  · exact ⟨splitPackage?_join hname hparse, text_of_parse? hparse⟩
  · constructor
    · rintro hnone name version rfl hname
      by_contra hsome
      obtain ⟨v, hparse⟩ := Option.ne_none_iff_exists'.1 hsome
      rw [splitPackage?_join hname hparse] at hnone
      cases hnone
    · intro h
      by_contra hsome
      obtain ⟨⟨name, v⟩, hsplit⟩ := Option.ne_none_iff_exists'.1 hsome
      obtain ⟨htext, hname, hparse⟩ := of_splitPackage? hsplit
      rw [h name v.text htext hname] at hparse
      cases hparse
  · have heq := congrArg String.toList h
    rw [toList_join, toList_join] at heq
    obtain ⟨hname, hversion⟩ := split_unique heq hv hv'
    exact ⟨String.toList_inj.1 hname, String.toList_inj.1 hversion⟩

theorem splitPackage?_exact_revision :
    ∃ v, parse? "1.0-r1" = some v ∧
      splitPackage? "lib-2-r3-1.0-r1" = some ("lib-2-r3", v) ∧ splitPackage? "lib-r3" = none := by
  have hparse : (parse? "1.0-r1").isSome := by decide +kernel
  obtain ⟨v, hv⟩ := Option.isSome_iff_exists.1 hparse
  exact ⟨v, hv, ((splitPackage?_exact "").2.1 "lib-2-r3" "1.0-r1" v (by decide) hv).1,
    by decide +kernel⟩

end EbuildAudit.Version
