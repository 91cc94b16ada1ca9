import EbuildAudit.Advisory.Index
import EbuildAudit.Proofs.Version.Base
import EbuildAudit.Proofs.Version.Order

namespace EbuildAudit

namespace Version

variable {s t : String} {v w : Version}

theorem order_eq_then_revision (v w : Version) :
    v.order w = (v.unrevised.order w.unrevised).then (compare v.revision w.revision) := by
  have hself : compare 0 0 = Ordering.eq := rfl
  simp only [order, unrevised, hself, Ordering.then_eq, Ordering.then_assoc]

theorem order_of_base_eq (hv : parse? s = some v) (hw : parse? t = some w) (h : v.base = w.base) :
    v.order w = compare v.revision w.revision := by
  have hself := order_self (numeric_of_parse? (parse?_base hv).1)
  rw [order_eq_then_revision, ← unrevised_eq_of_base_eq hv hw h, hself, Ordering.eq_then]

end Version

namespace Advisory

/-- The comparison of all versions that a comparison of revisions stands for within a base. -/
def RangeOp.whole? : RangeOp → Option RangeOp
  | .rlt => some .lt
  | .rle => some .le
  | .rge => some .ge
  | .rgt => some .gt
  | _ => none

variable {s t : String} {v w : Version} {op whole : RangeOp} {star star' : Bool}

theorem matches_of_whole? (hv : Version.parse? s = some v) (hw : Version.parse? t = some w)
    (h : op.whole? = some whole) :
    VersionRange.matches ⟨op, w, star⟩ v ↔
      v.base = w.base ∧ VersionRange.matches ⟨whole, w, star'⟩ v := by
  by_cases hbase : v.base = w.base
  · have horder := Version.order_of_base_eq hv hw hbase
    cases op <;> cases h <;> simp [VersionRange.matches, hbase, horder]
  · cases op <;> cases h <;> simp [VersionRange.matches, hbase]

/--
Versions of one base follow each other as their revisions do. The base is a version without a
revision. A range that compares revisions takes the versions of its base that the comparison of all
versions takes; so every version of the base is before its version, equal to it or after it.
-/
theorem revision_ranges_refine (hv : Version.parse? s = some v) (hw : Version.parse? t = some w) :
    (v.base = w.base → v.order w = compare v.revision w.revision) ∧
      ('-' ∉ v.base.toList ∧ Version.parse? v.base = some v.unrevised) ∧
      (∀ op whole star star', op.whole? = some whole →
        (VersionRange.matches ⟨op, w, star⟩ v ↔
          v.base = w.base ∧ VersionRange.matches ⟨whole, w, star'⟩ v)) ∧
      (v.base = w.base → ∀ star : RangeOp → Bool, star .eq = false →
        ∃! op, op ∈ [RangeOp.rlt, .eq, .rgt] ∧ VersionRange.matches ⟨op, w, star op⟩ v) := by
  obtain ⟨hread, hhyphen⟩ := Version.parse?_base hv
  refine ⟨Version.order_of_base_eq hv hw, ⟨hhyphen, hread⟩,
    fun op whole star star' h => matches_of_whole? hv hw h, fun hbase star hstar => ?_⟩
  have horder := Version.order_of_base_eq hv hw hbase
  have hrlt : VersionRange.matches ⟨.rlt, w, star .rlt⟩ v ↔ v.order w = .lt := by
    simp [VersionRange.matches, hbase, horder]
  have heq : VersionRange.matches ⟨.eq, w, star .eq⟩ v ↔ v.order w = .eq := by
    simp [VersionRange.matches, hstar]
  have hrgt : VersionRange.matches ⟨.rgt, w, star .rgt⟩ v ↔ v.order w = .gt := by
    simp [VersionRange.matches, hbase, horder]
  cases hcase : v.order w with
  | lt => exact ⟨.rlt, by simp [hrlt, hcase], by simp [heq, hrgt, hcase]⟩
  | eq => exact ⟨.eq, by simp [heq, hcase], by simp [hrlt, hrgt, hcase]⟩
  | gt => exact ⟨.rgt, by simp [hrgt, hcase], by simp [hrlt, heq, hcase]⟩

theorem revision_ranges_refine_older : ∃ v w, Version.parse? "1.1_p-r01" = some v ∧
    Version.parse? "1.1_p-r2" = some w ∧ v.base = w.base ∧ v.order w = .lt ∧
    VersionRange.matches ⟨.rlt, w, false⟩ v ∧
    ∃! op, op ∈ [RangeOp.rlt, .eq, .rgt] ∧ VersionRange.matches ⟨op, w, false⟩ v := by
  have hv : ∃ v, Version.parse? "1.1_p-r01" = some v ∧ v.base = "1.1_p" ∧ v.revision = 1 :=
    ⟨_, rfl, rfl, by decide⟩
  have hw : ∃ w, Version.parse? "1.1_p-r2" = some w ∧ w.base = "1.1_p" ∧ w.revision = 2 :=
    ⟨_, rfl, rfl, by decide⟩
  obtain ⟨v, hv, hbase, hrevision⟩ := hv
  obtain ⟨w, hw, hbase', hrevision'⟩ := hw
  have hsame : v.base = w.base := hbase.trans hbase'.symm
  obtain ⟨horder, -, hrange, hone⟩ := revision_ranges_refine hv hw
  have hlt : v.order w = .lt := by
    rw [horder hsame, hrevision, hrevision']
    decide
  have hwhole : VersionRange.matches ⟨.lt, w, false⟩ v := by simp [VersionRange.matches, hlt]
  exact ⟨v, w, hv, hw, hsame, hlt, (hrange .rlt .lt false false rfl).2 ⟨hsame, hwhole⟩,
    hone hsame (fun _ => false) rfl⟩

end Advisory

end EbuildAudit
