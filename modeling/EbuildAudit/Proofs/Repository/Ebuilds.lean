import EbuildAudit.Proofs.Basic
import EbuildAudit.Proofs.Dependency.NormalForm
import EbuildAudit.Proofs.Glob.Pattern
import EbuildAudit.Proofs.Repository.Listing
import EbuildAudit.Proofs.Version.Order
import EbuildAudit.Repository.Source
import Mathlib.Data.List.Nodup

namespace EbuildAudit

open FileTree (IsName)

namespace Path

variable {name stem ext : String}

theorem splitExtension_eq (h : splitExtension name = (stem, some ext)) :
    name.toList = stem.toList ++ '.' :: ext.toList := by
  rw [splitExtension] at h
  split at h
  case h_1 rest hrest =>
    split at h
    case isTrue => cases h
    case isFalse =>
      cases h
      have hback := List.takeWhile_append_dropWhile (p := (· != '.')) (l := name.toList.reverse)
      rw [hrest] at hback
      simpa using (congrArg List.reverse hback).symm
  case h_2 => cases h

end Path

namespace Repository

variable {files : FileTree} {dir package name : String} {v w : Version} {path : String}

theorem wellNamed?_eq_some (h : wellNamed? package name = some v) :
    (Path.splitExtension name).1.toList = package.toList ++ '-' :: v.text.toList ∧
      Version.parse? v.text = some v := by
  rw [wellNamed?] at h
  split at h
  case h_1 found version hsplit =>
    split at h
    case isTrue hfound =>
      cases h
      obtain ⟨⟨front, w⟩, hfrom, heq⟩ := Option.map_eq_some_iff.1 hsplit
      cases heq
      obtain ⟨htext, -, hparse⟩ := Version.of_splitFrom hfrom
      refine ⟨?_, hparse⟩
      rw [← hfound]
      simpa using htext
    case isFalse => cases h
  case h_2 => cases h

def ebuildVersion? (package name : String) : Option Version :=
  if Path.extension? name = some "ebuild" then wellNamed? package name else none

theorem ebuildVersion?_eq_some (hname : IsName name) (h : ebuildVersion? package name = some v) :
    name.toList = package.toList ++ '-' :: v.text.toList ++ ".ebuild".toList ∧
      Version.parse? v.text = some v := by
  obtain ⟨hextension, hwell⟩ := Option.ite_none_right_eq_some.1 h
  obtain ⟨hstem, hparse⟩ := wellNamed?_eq_some hwell
  rw [Path.extension?, Path.fileName?_of_endsWith hname .alone, Option.bind_some] at hextension
  refine ⟨?_, hparse⟩
  rw [Path.splitExtension_eq (Prod.ext rfl hextension), hstem]
  rfl

theorem name_eq_of_text_eq {name' : String} (hname : IsName name) (hname' : IsName name')
    (h : ebuildVersion? package name = some v) (h' : ebuildVersion? package name' = some w)
    (htext : v.text = w.text) : name = name' := by
  rw [← String.toList_inj, (ebuildVersion?_eq_some hname h).1, (ebuildVersion?_eq_some hname' h').1,
    htext]

def foundVersions (files : FileTree) (dir package : String) : List (Version × String) :=
  (entriesAt files dir).filterMap fun entry =>
    (ebuildVersion? package entry.1).map fun version => (version, entry.1)

theorem mem_foundVersions : (v, name) ∈ foundVersions files dir package ↔
    name ∈ (entriesAt files dir).map (·.1) ∧ ebuildVersion? package name = some v := by
  simp only [foundVersions, List.mem_filterMap, Option.map_eq_some_iff, List.mem_map, Prod.mk.injEq]
  constructor
  · rintro ⟨entry, hentry, version, hversion, rfl, rfl⟩
    exact ⟨⟨entry, hentry, rfl⟩, hversion⟩
  · rintro ⟨⟨entry, hentry, rfl⟩, hversion⟩
    exact ⟨entry, hentry, v, hversion, rfl, rfl⟩

theorem packageVersions_eq (files : FileTree) (dir package : String) :
    packageVersions files dir package =
      ((foundVersions files dir package).mergeSort byVersion).map fun (version, name) =>
        (version, Path.join dir name) := by
  rw [packageVersions, foundVersions]
  congr 2
  refine List.filterMap_congr fun entry _ => ?_
  obtain ⟨name, e⟩ := entry
  simp only [ebuildVersion?]
  split <;> rfl

theorem mem_packageVersions : (v, path) ∈ packageVersions files dir package ↔
    ∃ name, (v, name) ∈ foundVersions files dir package ∧ path = Path.join dir name := by
  rw [packageVersions_eq]
  simp only [List.mem_map, List.mem_mergeSort, Prod.mk.injEq]
  constructor
  · rintro ⟨⟨w, name⟩, hmem, rfl, rfl⟩
    exact ⟨name, hmem, rfl⟩
  · rintro ⟨name, hmem, rfl⟩
    exact ⟨(v, name), hmem, rfl, rfl⟩

def ebuildKey (found : Version × String) : Version.Key ×ₗ String :=
  toLex (found.1.key, found.2)

theorem byVersion_eq {a b : Version × String} (ha : a.1.Numeric) (hb : b.1.Numeric) :
    byVersion a b = (compare (ebuildKey a) (ebuildKey b)).isLE := by
  rw [ebuildKey, ebuildKey, Version.compare_toLex, ← Version.order_eq_compare_key ha hb, byVersion]
  cases (a.1.order b.1).then (compare a.2 b.2) <;> rfl

section

variable (hfiles : files.root.Proper)
include hfiles

theorem parse?_of_mem_foundVersions (h : (v, name) ∈ foundVersions files dir package) :
    Version.parse? v.text = some v := by
  obtain ⟨hname, hversion⟩ := mem_foundVersions.1 h
  exact (ebuildVersion?_eq_some (isName_of_mem hfiles hname) hversion).2

theorem nodup_foundVersions (dir package : String) :
    ((foundVersions files dir package).map (·.1.text)).Nodup := by
  have hentries := proper_entriesAt hfiles dir
  rw [foundVersions, List.map_filterMap, List.Nodup, List.pairwise_filterMap]
  refine (List.pairwise_map.1 hentries.nodup).imp_of_mem fun {a b} ha hb hne => ?_
  simp only [Option.map_map, Option.map_eq_some_iff, Function.comp_apply]
  rintro _ ⟨v, hv, rfl⟩ _ ⟨w, hw, rfl⟩ htext
  exact hne (name_eq_of_text_eq (hentries.isName a ha) (hentries.isName b hb) hv hw htext)

theorem nodup_packageVersions (dir package : String) :
    ((packageVersions files dir package).map (·.1.text)).Nodup := by
  rw [packageVersions_eq, List.map_map, ((List.mergeSort_perm _ _).map _).nodup_iff]
  exact nodup_foundVersions hfiles dir package

theorem numeric_of_mem_foundVersions {found : Version × String}
    (h : found ∈ foundVersions files dir package) : found.1.Numeric :=
  Version.numeric_of_parse? (parse?_of_mem_foundVersions hfiles h)

theorem pairwise_packageVersions (dir package : String) :
    (packageVersions files dir package).Pairwise fun a b => a.1.order b.1 ≠ .gt := by
  rw [packageVersions_eq, List.pairwise_map]
  have hnumeric {found : Version × String} (h : found ∈ foundVersions files dir package) :=
    numeric_of_mem_foundVersions hfiles h
  refine (pairwise_mergeSort_by ebuildKey fun a ha b hb =>
    byVersion_eq (hnumeric ha) (hnumeric hb)).imp_of_mem fun {a b} ha hb hle => ?_
  rw [List.mem_mergeSort] at ha hb
  rw [← byVersion_eq (hnumeric ha) (hnumeric hb), byVersion] at hle
  intro hgt
  simp [hgt] at hle

end

def namedVersions (files : FileTree) (dir package : String) : List (Version × String) :=
  ((visibleNames files dir).filter (Glob.Pattern.ofEnding ".ebuild").matchesAnyCase).filterMap
    fun name => (wellNamed? package name).map fun version => (version, name)

theorem mem_namedVersions : (v, name) ∈ namedVersions files dir package ↔
    name ∈ visibleNames files dir ∧ (Glob.Pattern.ofEnding ".ebuild").matchesAnyCase name = true ∧
      wellNamed? package name = some v := by
  simp only [namedVersions, List.mem_filterMap, List.mem_filter, Option.map_eq_some_iff,
    Prod.mk.injEq]
  constructor
  · rintro ⟨name, ⟨hname, hending⟩, version, hversion, rfl, rfl⟩
    exact ⟨hname, hending, hversion⟩
  · rintro ⟨hname, hending, hversion⟩
    exact ⟨name, ⟨hname, hending⟩, v, hversion, rfl, rfl⟩

theorem numeric_of_mem_namedVersions {found : Version × String}
    (h : found ∈ namedVersions files dir package) : found.1.Numeric := by
  obtain ⟨-, -, hversion⟩ := mem_namedVersions.1 h
  exact Version.numeric_of_parse? (wellNamed?_eq_some hversion).2

theorem eq_of_ebuildKey_eq {a b : Version × String} (ha : a ∈ namedVersions files dir package)
    (hb : b ∈ namedVersions files dir package) (h : ebuildKey a = ebuildKey b) : a = b := by
  obtain ⟨v, name⟩ := a
  obtain ⟨w, name'⟩ := b
  obtain rfl : name = name' := congrArg (fun key => (ofLex key).2) h
  obtain ⟨-, -, hv⟩ := mem_namedVersions.1 ha
  obtain ⟨-, -, hw⟩ := mem_namedVersions.1 hb
  rw [Option.some_inj.1 (hv.symm.trans hw)]

theorem namedVersions_pairwise (hfiles : files.root.Proper) (dir package : String) :
    (namedVersions files dir package).Pairwise fun a b => a.2 < b.2 := by
  rw [namedVersions, List.pairwise_filterMap]
  refine ((visibleNames_pairwise hfiles dir).filter _).imp fun {name name'} hlt => ?_
  simp only [Option.map_eq_some_iff]
  rintro _ ⟨v, -, rfl⟩ _ ⟨w, -, rfl⟩
  exact hlt

theorem byVersion_of_lt {a b : Version × String} (ha : a.1.Numeric) (hb : b.1.Numeric)
    (hlt : a.2 < b.2) : byVersion a b = a.1.notAfter b.1 ∧
      byVersion b a = (b.1.notAfter a.1 && !a.1.notAfter b.1) := by
  have hname : compare a.2 b.2 = .lt := compare_lt_iff_lt.2 hlt
  have hname' : compare b.2 a.2 = .gt := compare_gt_iff_gt.2 hlt
  rw [byVersion, byVersion, Version.notAfter, Version.notAfter, Version.order_swap ha hb, hname,
    hname']
  cases a.1.order b.1 <;> exact ⟨rfl, rfl⟩

theorem byVersion_self {a : Version × String} (ha : a.1.Numeric) :
    a.1.notAfter a.1 = true ∧ byVersion a a = true := by
  have hname : compare a.2 a.2 = .eq := compare_eq_iff_eq.2 rfl
  rw [byVersion, Version.notAfter, Version.order_self ha, hname]
  exact ⟨rfl, rfl⟩

theorem of_ebuildVersion? (hname : IsName name) (hpackage : isHidden package = false)
    (h : ebuildVersion? package name = some v) : isHidden name = false ∧
      (Glob.Pattern.ofEnding ".ebuild").matchesAnyCase name = true := by
  obtain ⟨hchars, -⟩ := ebuildVersion?_eq_some hname h
  constructor
  · rw [isHidden, hchars, decide_eq_false_iff_not]
    rw [isHidden, decide_eq_false_iff_not] at hpackage
    cases hfirst : package.toList with
    | nil => simp
    | cons c cs => simpa [hfirst] using hpackage
  · obtain rfl : name = String.ofList (package.toList ++ '-' :: v.text.toList) ++ ".ebuild" := by
      rw [← String.toList_inj, hchars]
      simp
    exact Glob.Pattern.matchesAnyCase_ofEnding _ _

theorem perm_foundVersions (hfiles : files.root.Proper) (dir : String)
    (hpackage : isHidden package = false) :
    ((namedVersions files dir package).filter fun found =>
      Path.extension? found.2 = some "ebuild").Perm (foundVersions files dir package) := by
  have hnamed : (namedVersions files dir package).Nodup :=
    (namedVersions_pairwise hfiles dir package).imp fun hlt heq => (heq ▸ hlt).ne rfl
  have hfound : (foundVersions files dir package).Nodup :=
    List.Nodup.of_map _ (nodup_foundVersions hfiles dir package)
  rw [List.perm_ext_iff_of_nodup (hnamed.filter _) hfound]
  rintro ⟨v, name⟩
  rw [List.mem_filter, mem_namedVersions, mem_foundVersions, mem_visibleNames, decide_eq_true_iff]
  constructor
  · rintro ⟨⟨⟨hmem, -⟩, -, hversion⟩, hextension⟩
    exact ⟨hmem, by rw [ebuildVersion?, if_pos hextension, hversion]⟩
  · rintro ⟨hmem, hversion⟩
    obtain ⟨hhidden, hending⟩ := of_ebuildVersion? (isName_of_mem hfiles hmem) hpackage hversion
    obtain ⟨hextension, hversion⟩ := Option.ite_none_right_eq_some.1 hversion
    exact ⟨⟨⟨hmem, hhidden⟩, hending, hversion⟩, hextension⟩

theorem filter_mergeSort_namedVersions (hfiles : files.root.Proper) (dir : String)
    (hpackage : isHidden package = false) :
    ((namedVersions files dir package).mergeSort byVersion).filter (fun found =>
      Path.extension? found.2 = some "ebuild") =
        (foundVersions files dir package).mergeSort byVersion := by
  have hperm := ((List.mergeSort_perm (namedVersions files dir package) byVersion).filter _).trans
    ((perm_foundVersions hfiles dir hpackage).trans (List.mergeSort_perm _ byVersion).symm)
  refine eq_of_perm_of_pairwise ebuildKey hperm (fun a ha b hb => ?_) (.filter _ ?_) ?_
  · exact eq_of_ebuildKey_eq (List.mem_mergeSort.1 (List.mem_filter.1 ha).1)
      (List.mem_mergeSort.1 (List.mem_filter.1 hb).1)
  · exact pairwise_mergeSort_by ebuildKey fun a ha b hb =>
      byVersion_eq (numeric_of_mem_namedVersions ha) (numeric_of_mem_namedVersions hb)
  · exact pairwise_mergeSort_by ebuildKey fun a ha b hb =>
      byVersion_eq (numeric_of_mem_foundVersions hfiles ha) (numeric_of_mem_foundVersions hfiles hb)

end Repository

end EbuildAudit
