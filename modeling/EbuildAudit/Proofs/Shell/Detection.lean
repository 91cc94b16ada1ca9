import EbuildAudit.Proofs.Basic
import EbuildAudit.Proofs.Shell.Quoting
import EbuildAudit.Proofs.Shell.Traversal
import EbuildAudit.Shell.Detector
import Mathlib.Data.List.Nodup

namespace EbuildAudit.Shell

namespace Inspector

variable {s : Script} {n : Node} {i j : Inspector} {inspectors : List Inspector}

theorem analyze_eq (inspectors : List Inspector) (s : Script) :
    analyze inspectors s = s.tree.root.preorder.flatMap fun n =>
      (inspectors.filter (·.interests.contains n.kind)).flatMap (·.inspect s n) := by
  rw [analyze, Node.descendants_eq_preorder]
  refine List.flatMap_congr fun n _ => ?_
  induction inspectors with
  | nil => rfl
  | cons i inspectors ih =>
    rw [List.flatMap_cons, ih, List.filter_cons]
    split <;> rfl

theorem filter_inspect : (j.inspect s n).filter (·.kind == i.kind) =
    if j.kind = i.kind then j.inspect s n else [] := by
  split
  case isTrue h =>
    refine List.filter_eq_self.2 fun f hf => ?_
    rw [j.kind_inspect s n f hf, h, beq_self_eq_true]
  case isFalse h =>
    refine List.filter_eq_nil_iff.2 fun f hf => ?_
    rwa [j.kind_inspect s n f hf, beq_iff_eq]

theorem filter_flatMap_inspect (hdistinct : (inspectors.map kind).Nodup) (hi : i ∈ inspectors)
    (keep : Inspector → Bool) :
    ((inspectors.filter keep).flatMap (·.inspect s n)).filter (·.kind == i.kind) =
      ([i].filter keep).flatMap (·.inspect s n) := by
  simp only [List.filter_flatMap, filter_inspect]
  have hother : ∀ j ∈ inspectors, j ≠ i → ¬j.kind = i.kind := fun j hj hne hkind =>
    hne (List.inj_on_of_nodup_map hdistinct hj hi hkind)
  by_cases hkeep : keep i
  · rw [flatMap_eq_of_mem ((List.Nodup.of_map _ hdistinct).filter keep) (List.mem_filter.2 ⟨hi, hkeep⟩)
      fun j hj hne => if_neg (hother j (List.mem_filter.1 hj).1 hne)]
    simp [hkeep]
  · rw [List.filter_cons_of_neg hkeep, List.filter_nil, List.flatMap_nil, List.flatMap_eq_nil_iff]
    intro j hj
    obtain ⟨hmem, hj⟩ := List.mem_filter.1 hj
    refine if_neg (hother j hmem ?_)
    rintro rfl
    exact hkeep hj

end Inspector

/--
The walk visits all nodes once, in pre-order, and at each of them those that look at nodes of its
kind find what they find, one after the other. So what one of them finds is the same, and in the
same order, whatever others there are.
-/
theorem analyze_independent {s : Script} {inspectors : List Inspector}
    (hdistinct : (inspectors.map Inspector.kind).Nodup) :
    (s.tree.root.Enumerates s.tree.root.descendants ∧
        s.tree.root.descendants = s.tree.root.preorder) ∧
      (Inspector.analyze inspectors s = s.tree.root.preorder.flatMap fun n =>
        (inspectors.filter (·.interests.contains n.kind)).flatMap (·.inspect s n)) ∧
      ∀ i ∈ inspectors, (Inspector.analyze inspectors s).filter (·.kind == i.kind) =
        Inspector.analyze [i] s := by
  refine ⟨⟨s.tree.root.enumerates_descendants, s.tree.root.descendants_eq_preorder⟩,
    Inspector.analyze_eq inspectors s, fun i hi => ?_⟩
  rw [Inspector.analyze_eq, Inspector.analyze_eq, List.filter_flatMap]
  exact List.flatMap_congr fun n _ => Inspector.filter_flatMap_inspect hdistinct hi _

/-- The script `dohtml $D""x`. -/
def joinedCommand : Tree where
  source := "dohtml $D\"\"x".toList
  root := .inLine true "program" 0 12
    [.inLine true "command" 0 12
      [.inLine true "command_name" 0 6 [.inLine true "word" 0 6 []],
        .inLine true "concatenation" 7 12
          [.inLine true "simple_expansion" 7 9
            [.inLine false "$" 7 8 [], .inLine true "variable_name" 8 9 []],
            .inLine true "string" 9 11 [.inLine false "\"" 9 10 [], .inLine false "\"" 10 11 []],
            .inLine true "word" 11 12 []]]]

theorem analyze_independent_joinedCommand :
    let detectors := [Detector.bannedCommand, .missingSlash, .unquotedVariable]
    let script : Script := ⟨joinedCommand, some 7⟩
    ((detectors.map Detector.inspector).map Inspector.kind).Nodup ∧
      (analyze detectors script).filter (·.kind == "MissingSlash") =
        analyze [.missingSlash] script ∧
      (analyze [.missingSlash] script).length = 1 := by
  intro detectors script
  have h : ((detectors.map Detector.inspector).map Inspector.kind).Nodup := by
    decide
  have hmem : Detector.missingSlash.inspector ∈ detectors.map Detector.inspector :=
    List.mem_map_of_mem (by decide)
  refine ⟨h, (analyze_independent h).2.2 _ hmem, ?_⟩
  rw [analyze, Inspector.analyze_eq]
  decide +kernel

end EbuildAudit.Shell
