import EbuildAudit.Proofs.Dependency.NormalForm
import EbuildAudit.Proofs.Version.Spelling

namespace EbuildAudit.Dependency.Atom

variable {s t : String} {a : Atom} {v w : Version}

theorem exists_version (h : Atom.parse s = .ok a) (hop : a.operator.isSome) :
    ∃ w, a.version = some w ∧ Version.parse? w.text = some w := by
  have hnormal := normal_of_parse h
  obtain ⟨w, hw⟩ := Option.isSome_iff_exists.1 (hnormal.isSome ▸ hop)
  have hsplit := hnormal.version w hw
  rw [splitVersion] at hsplit
  split at hsplit
  case h_1 hfrom =>
    cases hsplit
    exact ⟨w, hw, (Version.of_splitFrom hfrom).2.2⟩
  case h_2 => cases hsplit

theorem matchesVersion_approx (hop : a.operator = some .approx) (hw : a.version = some w) :
    a.matchesVersion v ↔ v.base = w.base := by
  rw [matchesVersion, hop, hw]
  exact beq_iff_eq

theorem matchesVersion_equal (hop : a.operator = some .equal) (hw : a.version = some w) :
    a.matchesVersion v ↔ v.order w = .eq := by
  rw [matchesVersion, hop, hw]
  exact beq_iff_eq

/--
An atom for any revision matches the versions that are equal to the wanted one once both have no
revision, and with that all that the atom for equal versions matches, apart from those of which the
base is written in another way. There are none of these if both are written without a zero that does
not count.
-/
theorem approx_matches_iff (ha : Atom.parse s = .ok a) (hop : a.operator = some .approx)
    (hv : Version.parse? t = some v) :
    ∃ w, a.version = some w ∧ Version.parse? v.base = some v.unrevised ∧
      Version.parse? w.base = some w.unrevised ∧
      ((a.matchesVersion v ↔ v.unrevised.order w.unrevised = .eq) ↔ ¬v.Respelled w) ∧
      (a.matchesVersion v → v.unrevised.order w.unrevised = .eq) ∧
      ({ a with operator := some .equal }.matchesVersion v → a.matchesVersion v ∨ v.Respelled w) ∧
      (v.Terse → w.Terse → ¬v.Respelled w) ∧
      (a.matchesVersion v ↔ t = w.base ∨ ∃ digits, t = w.base ++ "-r" ++ digits) := by
  obtain ⟨w, hversion, hw⟩ := exists_version ha (by rw [hop]; rfl)
  have horder := Version.order_unrevised_eq_iff hv hw
  have hmatch := matchesVersion_approx (v := v) hop hversion
  have hspelling := Version.spelling_eq_of_base_eq hv hw
  refine ⟨w, hversion, (Version.parse?_base hv).1, (Version.parse?_base hw).1, ?_, ?_, ?_, ?_, ?_⟩
  · rw [hmatch, horder, Version.Respelled]
    tauto
  · rw [hmatch, horder]
    exact hspelling
  · intro hequal
    have heq := (matchesVersion_equal (a := { a with operator := some .equal }) rfl hversion).1 hequal
    have hsame := ((Version.order_eq_iff_spelling hv hw).1 heq).1
    rw [hmatch, Version.Respelled]
    tauto
  · rintro hterse hterse' ⟨hbase, hspelling⟩
    exact hbase (hterse.base_eq hterse' hspelling)
  · rw [hmatch, Version.base_eq_iff hv hw]

theorem approx_matches_iff_revision : ∃ a v w, Atom.parse "~a/b-1.2" = .ok a ∧
    Version.parse? "1.2-r5" = some v ∧ Version.parse? "1.2.1" = some w ∧
    v.Terse ∧ a.matchesVersion v ∧ ¬a.matchesVersion w := by
  have ha : ∃ a, Atom.parse "~a/b-1.2" = .ok a ∧ a.operator = some .approx ∧
      ∃ u, a.version = some u ∧ u.base = "1.2" := ⟨_, rfl, rfl, _, rfl, rfl⟩
  have hv : ∃ v, Version.parse? "1.2-r5" = some v ∧ v.Terse := ⟨_, rfl, by decide⟩
  have hw : ∃ w, Version.parse? "1.2.1" = some w ∧ w.base = "1.2.1" := ⟨_, rfl, rfl⟩
  obtain ⟨a, ha, hop, u, hu, hbase⟩ := ha
  obtain ⟨v, hv, hterse⟩ := hv
  obtain ⟨w, hw, hother⟩ := hw
  refine ⟨a, v, w, ha, hv, hw, hterse, ?_, ?_⟩
  · obtain ⟨u', hu', -, -, -, -, -, -, hmatch⟩ := approx_matches_iff ha hop hv
    obtain rfl := Option.some_inj.1 (hu.symm.trans hu')
    exact hmatch.2 (.inr ⟨"5", by rw [hbase]; decide⟩)
  · rw [matchesVersion_approx hop hu, hbase, hother]
    decide

/-- Equal in the order, with one more zero in the text. -/
theorem not_approx_matches_zeros : ∃ a v w, Atom.parse "~a/b-1.0" = .ok a ∧
    a.operator = some .approx ∧ a.version = some w ∧ Version.parse? "1.00" = some v ∧
    v.unrevised.order w.unrevised = .eq ∧
    { a with operator := some .equal }.matchesVersion v = true ∧ a.matchesVersion v = false :=
  ⟨_, _, _, rfl, rfl, rfl, rfl, by decide +kernel, by decide +kernel, by decide +kernel⟩

end EbuildAudit.Dependency.Atom
