import EbuildAudit.Proofs.Package.Entries
import EbuildAudit.Proofs.Repository.Enumeration

namespace EbuildAudit

open FileTree (IsName)
open Repository

namespace Package

variable {load : Loader} {files : FileTree} {root key category package name : String}
  {units : List ScanUnit} {unit : ScanUnit} {index : Index}

def unitVersion? (load : Loader) (files : FileTree) (key : String) (unit : ScanUnit) :
    Option IndexedVersion :=
  match unit.id with
  | .version category package text =>
    if category ++ "/" ++ package = key then
      (load files unit.path).toOption.map fun metadata => ⟨text, metadata.iuse, metadata.keywords⟩
    else none
  | _ => none

def listed (load : Loader) (files : FileTree) (units : List ScanUnit) (key : String) :
    List IndexedVersion :=
  units.filterMap (unitVersion? load files key)

/-- An index of the packages that have a version among some units, and of these versions. -/
structure Index.Agrees (load : Loader) (files : FileTree) (units : List ScanUnit) (i : Index) :
    Prop where
  keys : ∀ key, i.contains key = true ↔ listed load files units key ≠ []
  versions : ∀ key, i.versions key = listed load files units key
  once : ∀ key, ((i.versions key).map (·.version)).Nodup

/-- Whatever the index takes for a version lies in a category and ends as ebuilds end. -/
def Tidy (load : Loader) (files : FileTree) (root : String) : Prop :=
  ∀ category package name, Indexed load files root category package name →
    isCategoryDir category = true ∧ Path.extension? name = some "ebuild"

theorem exists_of_unitVersion? {s : Source} {version : IndexedVersion} (hunit : unit ∈ s.units files)
    (h : unitVersion? load files key unit = some version) :
    ∃ category ∈ s.categories files, ∃ package ∈ s.packages files category,
      key = category ++ "/" ++ package ∧ unit.parent? = some (.package category package) := by
  rcases Source.mem_units.1 hunit with ⟨category, hcategory, hunit⟩ | ⟨-, rfl⟩ | ⟨hash, -, rfl⟩
  · rcases Source.mem_categoryUnits.1 hunit with ⟨package, hpackage, hunit⟩ | ⟨-, rfl⟩
    · rw [Source.packageUnits_eq, List.mem_append, List.mem_singleton] at hunit
      rcases hunit with hunit | rfl
      · obtain ⟨v, path, -, rfl⟩ := Source.id_of_mem_versionUnits hunit
        obtain ⟨hkey, -⟩ := Option.ite_none_right_eq_some.1 h
        exact ⟨category, hcategory, package, hpackage, hkey.symm, rfl⟩
      · cases h
    · cases h
  · cases h
  · cases h

theorem of_unitVersion? (hfiles : files.root.Proper) {s : Source} {version : IndexedVersion}
    (hcategory : IsName category) (hpackage : IsName package) (hunit : unit ∈ s.units files)
    (h : unitVersion? load files (category ++ "/" ++ package) unit = some version) :
    category ∈ s.categories files ∧ unit.parent? = some (.package category package) := by
  obtain ⟨category', hcategory', package', hpackage', hkey, hparent⟩ := exists_of_unitVersion? hunit h
  obtain ⟨rfl, rfl⟩ := key_inj hcategory.noSlash hpackage.noSlash
    (isName_of_mem_visibleDirs hfiles (Source.mem_categories.1 hcategory').1).noSlash
    (isName_of_mem_visibleDirs hfiles (List.mem_filter.1 hpackage').1).noSlash hkey
  exact ⟨hcategory', hparent⟩

theorem listed_below (load : Loader) (hfiles : files.root.Proper) {s : Source}
    (hcategory : IsName category) (hpackage : IsName package) :
    listed load files (s.units files) (category ++ "/" ++ package) =
      listed load files (below (s.units files) (.package category package))
        (category ++ "/" ++ package) := by
  rw [listed, listed, below, List.filterMap_filter]
  refine List.filterMap_congr fun unit hunit => ?_
  split
  case isTrue => rfl
  case isFalse hparent =>
    refine Option.eq_none_iff_forall_ne_some.2 fun version hversion => hparent ?_
    exact beq_iff_eq.2 (of_unitVersion? hfiles hcategory hpackage hunit hversion).2

theorem listed_units (load : Loader) (hfiles : files.root.Proper) {s : Source}
    (hempty : s.restriction.isEmpty = true) (hcategory : category ∈ visibleDirs files s.root)
    (hpackage : package ∈ visibleDirs files (Path.join s.root category)) :
    let dir := Path.join (Path.join s.root category) package
    listed load files (s.units files) (category ++ "/" ++ package) =
      if isCategoryDir category then
        (((namedVersions files dir package).mergeSort Repository.byVersion).filter fun found =>
          Path.extension? found.2 = some "ebuild").filterMap (version? load files dir)
      else [] := by
  intro dir
  have hcategoryName := isName_of_mem_visibleDirs hfiles hcategory
  have hpackageName := isName_of_mem_visibleDirs hfiles hpackage
  split
  case isTrue hdir =>
    obtain ⟨entries, -, hhidden⟩ := mem_visibleDirs.1 hpackage
    rw [listed_below load hfiles hcategoryName hpackageName,
      Source.below_package hfiles (Source.mem_categories.2 ⟨hcategory, hdir⟩)
        ((Source.mem_packages hempty).2 hpackage), listed, Source.versionUnits, List.filterMap_map,
      packageVersions_eq, List.filterMap_map, filter_mergeSort_namedVersions hfiles dir hhidden]
    exact List.filterMap_congr fun found _ => if_pos rfl
  case isFalse hdir =>
    rw [listed, List.filterMap_eq_nil_iff]
    refine fun unit hunit => Option.eq_none_iff_forall_ne_some.2 fun version hversion => hdir ?_
    obtain ⟨hmem, -⟩ := of_unitVersion? hfiles hcategoryName hpackageName hunit hversion
    exact (Source.mem_categories.1 hmem).2

section

variable (hfiles : files.root.Proper) {s : Source}
include hfiles

theorem versions_eq_listed_iff (hroot : Plain s.root) (hload : load.Steady files s.root)
    (hempty : s.restriction.isEmpty = true) (hcategory : category ∈ visibleDirs files s.root)
    (hpackage : package ∈ visibleDirs files (Path.join s.root category)) :
    (Index.ofFiles ((ebuildFiles files s.root).filterMap (loaded? load files))).versions
        (category ++ "/" ++ package) =
      listed load files (s.units files) (category ++ "/" ++ package) ↔
    ∀ name, Indexed load files s.root category package name →
      isCategoryDir category = true ∧ Path.extension? name = some "ebuild" := by
  simp only [versions_indexed hfiles hroot hload hcategory hpackage,
    listed_units load hfiles hempty hcategory hpackage, indexed_iff hcategory hpackage]
  by_cases hdir : isCategoryDir category = true
  · rw [if_pos hdir, eq_comm, filterMap_filter_eq_iff]
    simp only [List.mem_mergeSort, decide_eq_true_iff, hdir, true_and]
    constructor
    · rintro h name ⟨v, hmem, hloads⟩
      exact h (v, name) hmem hloads
    · intro h found hmem hloads
      exact h found.2 ⟨found.1, hmem, hloads⟩
  · rw [if_neg hdir, List.filterMap_eq_nil_iff]
    simp only [List.mem_mergeSort, hdir, Bool.false_eq_true, false_and, imp_false]
    constructor
    · rintro h name ⟨v, hmem, hloads⟩
      rw [h (v, name) hmem] at hloads
      cases hloads
    · intro h found hmem
      exact Option.not_isSome_iff_eq_none.1 fun hloads => h found.2 ⟨found.1, hmem, hloads⟩

theorem versions_eq_listed_of_not_mem (hroot : Plain s.root)
    (hkey : ∀ category ∈ visibleDirs files s.root,
      ∀ package ∈ visibleDirs files (Path.join s.root category), key ≠ category ++ "/" ++ package) :
    (Index.ofFiles ((ebuildFiles files s.root).filterMap (loaded? load files))).versions key = [] ∧
      listed load files (s.units files) key = [] := by
  constructor
  · have hnone : (ebuildFiles files s.root).filter (·.key == key) = [] := by
      rw [List.filter_eq_nil_iff]
      intro file hfile heq
      obtain ⟨category, hcategory, package, hpackage, hfileKey⟩ :=
        exists_of_mem_ebuildFiles hfiles hroot hfile
      exact hkey category hcategory package hpackage ((beq_iff_eq.1 heq).symm.trans hfileKey)
    rw [Index.versions_ofFiles, filter_filterMap_loaded?, hnone, List.filterMap_nil,
      List.mergeSort_nil, List.map_nil]
  · rw [listed, List.filterMap_eq_nil_iff]
    refine fun unit hunit => Option.eq_none_iff_forall_ne_some.2 fun version hversion => ?_
    obtain ⟨category, hcategory, package, hpackage, heq, -⟩ := exists_of_unitVersion? hunit hversion
    exact hkey category (Source.mem_categories.1 hcategory).1 package
      (List.mem_filter.1 hpackage).1 heq

theorem nodup_listed (load : Loader) (hempty : s.restriction.isEmpty = true)
    (hcategory : category ∈ visibleDirs files s.root)
    (hpackage : package ∈ visibleDirs files (Path.join s.root category)) :
    ((listed load files (s.units files) (category ++ "/" ++ package)).map (·.version)).Nodup := by
  let dir := Path.join (Path.join s.root category) package
  obtain ⟨entries, -, hhidden⟩ := mem_visibleDirs.1 hpackage
  have hfound : ((foundVersions files dir package).mergeSort Repository.byVersion).Pairwise
      fun a b => a.1.text ≠ b.1.text := by
    rw [← List.pairwise_map (R := (· ≠ ·)) (f := fun found : Version × String => found.1.text)]
    exact ((List.mergeSort_perm _ _).map _).nodup_iff.2 (nodup_foundVersions hfiles dir package)
  rw [listed_units load hfiles hempty hcategory hpackage,
    filter_mergeSort_namedVersions hfiles dir hhidden]
  split
  · rw [List.Nodup, List.pairwise_map, List.pairwise_filterMap]
    refine hfound.imp fun {a b} hne => ?_
    simp only [version?, Option.map_eq_some_iff]
    rintro _ ⟨metadata, -, rfl⟩ _ ⟨metadata', -, rfl⟩
    exact hne
  · exact List.Pairwise.nil

end

theorem Index.agrees_ofFiles_iff (load : Loader) {s : Source} (hfiles : files.root.Proper)
    (hroot : Plain s.root) (hload : load.Steady files s.root)
    (hempty : s.restriction.isEmpty = true) :
    (Index.ofFiles ((ebuildFiles files s.root).filterMap (loaded? load files))).Agrees load files
      (s.units files) ↔ Tidy load files s.root := by
  constructor
  · intro hagrees category package name h
    exact (versions_eq_listed_iff hfiles hroot hload hempty h.top h.below).1
      (hagrees.versions _) name h
  · intro htidy
    have hkey (key : String) :
        (ofFiles ((ebuildFiles files s.root).filterMap (loaded? load files))).versions key =
          listed load files (s.units files) key ∧
        ((listed load files (s.units files) key).map (·.version)).Nodup := by
      by_cases hmem : ∃ category ∈ visibleDirs files s.root,
          ∃ package ∈ visibleDirs files (Path.join s.root category), key = category ++ "/" ++ package
      · obtain ⟨category, hcategory, package, hpackage, rfl⟩ := hmem
        exact ⟨(versions_eq_listed_iff hfiles hroot hload hempty hcategory hpackage).2
          (htidy category package), nodup_listed hfiles load hempty hcategory hpackage⟩
      · obtain ⟨hversions, hlisted⟩ := versions_eq_listed_of_not_mem hfiles hroot
          fun category hcategory package hpackage heq =>
            hmem ⟨category, hcategory, package, hpackage, heq⟩
        exact ⟨hversions.trans hlisted.symm, by simp [hlisted]⟩
    exact {
      keys := fun key => by rw [contains_ofFiles_iff, (hkey key).1]
      versions := fun key => (hkey key).1
      once := fun key => (hkey key).1 ▸ (hkey key).2 }

theorem indexed_unsortedEntries (hhidden : isHidden category = false)
    (htop : entriesAt files "/" = [(category, .dir [("p", .dir unsortedEntries)])])
    (hbelow : entriesAt files (Path.join "/" category) = [("p", .dir unsortedEntries)])
    (hentries : entriesAt files (Path.join (Path.join "/" category) "p") = unsortedEntries)
    (htext : files.readText
      (Path.join (Path.join (Path.join "/" category) "p") "p-1.9.ebuild") = .ok "") :
    Indexed .ebuilds files "/" category "p" "p-1.9.ebuild" := by
  have hstatements : Ebuild.statements "" = .ok [] := by
    have hlines : Text.lineLists "".toList = [] := by decide
    rw [Ebuild.statements, hlines, Ebuild.readLines]
  obtain ⟨metadata, hmetadata⟩ : ∃ metadata, Ebuild.parse "" = .ok metadata := by
    rw [Ebuild.parse, hstatements]
    exact ⟨_, rfl⟩
  exact {
    top := mem_visibleDirs.2 ⟨_, htop ▸ List.mem_cons_self, hhidden⟩
    below := mem_visibleDirs.2 ⟨_, hbelow ▸ List.mem_cons_self, by decide⟩
    visible := mem_visibleNames.2 ⟨hentries ▸ by decide, by decide⟩
    ending := by decide +kernel
    named := by decide +kernel
    loads := ⟨metadata, Loader.ebuilds_eq_ok_iff.2 ⟨"", htext, hmetadata⟩⟩ }

/--
The index of a repository is made unless a loader crashes. It has the packages and the versions of
the units of a scan of everything, each once and in their order, if and only if all that it takes
for a version is tidy.
-/
theorem Index.agrees_iff (load : Loader) (files : FileTree) (s : Source)
    (hfiles : files.root.Proper) (hroot : Plain s.root) (hload : load.Steady files s.root)
    (hempty : s.restriction.isEmpty = true) :
    ((∃ index, Index.load load files s.root = .ok index) ↔
      ∀ file ∈ ebuildFiles files s.root, ∀ cause, load files file.path ≠ .error (.crash cause)) ∧
    ∀ index, Index.load load files s.root = .ok index →
      (index.Agrees load files (s.units files) ↔ Tidy load files s.root) := by
  constructor
  · constructor
    · rintro ⟨index, hindex⟩
      exact (load_eq_ok_iff.1 hindex).1
    · intro hcrash
      exact ⟨_, load_eq_ok_iff.2 ⟨hcrash, rfl⟩⟩
  · intro index hindex
    obtain ⟨-, rfl⟩ := load_eq_ok_iff.1 hindex
    exact agrees_ofFiles_iff load hfiles hroot hload hempty

theorem Index.agrees_iff_lonePackage :
    let s : Source := ⟨"/", .none, []⟩
    lonePackage.root.Proper ∧ Plain s.root ∧ Loader.Steady .ebuilds lonePackage s.root ∧
      s.restriction.isEmpty = true ∧ ∃ index, Index.load .ebuilds lonePackage s.root = .ok index ∧
        index.Agrees .ebuilds lonePackage (s.units lonePackage) ∧ index.contains "a/p" = true := by
  intro s
  have hload : Loader.Steady .ebuilds lonePackage s.root := Loader.steady_of_clean _ _ .top
  obtain ⟨hexists, hagrees⟩ :=
    agrees_iff .ebuilds lonePackage s lonePackage_proper .top hload rfl
  have htop : entriesAt lonePackage "/" = [("a", .dir [("p", .dir unsortedEntries)])] := rfl
  have hbelow : entriesAt lonePackage (Path.join "/" "a") = [("p", .dir unsortedEntries)] := rfl
  have hentries :
      entriesAt lonePackage (Path.join (Path.join "/" "a") "p") = unsortedEntries := rfl
  have htidy : Tidy .ebuilds lonePackage s.root := by
    rintro category package name ⟨hcategory, hpackage, hname, hending, -, -⟩
    obtain ⟨_, hcategory, -⟩ := mem_visibleDirs.1 hcategory
    rw [htop, List.mem_singleton] at hcategory
    cases hcategory
    obtain ⟨_, hpackage, -⟩ := mem_visibleDirs.1 hpackage
    rw [hbelow, List.mem_singleton] at hpackage
    cases hpackage
    obtain ⟨hname, -⟩ := mem_visibleNames.1 hname
    rw [hentries] at hname
    have hall : ∀ name ∈ unsortedEntries.map (·.1),
        (Glob.Pattern.ofEnding ".ebuild").matchesAnyCase name = true →
          Path.extension? name = some "ebuild" := by
      decide +kernel
    exact ⟨by decide, hall name hname hending⟩
  obtain ⟨index, hindex⟩ := hexists.2 fun file _ => Loader.ebuilds_ne_crash lonePackage file.path
  have hcontains := contains_of_indexed lonePackage_proper .top hload
    (indexed_unsortedEntries (by decide) htop hbelow hentries rfl)
  have hkey : "a" ++ "/" ++ "p" = "a/p" := by decide
  rw [hkey, (load_eq_ok_iff.1 hindex).2] at hcontains
  exact ⟨lonePackage_proper, .top, hload, rfl, index, hindex, (hagrees index hindex).2 htidy, hcontains⟩

def misplacedPackage : FileTree where
  root := .dir [("scripts", .dir [("p", .dir unsortedEntries)])]
  cwd := []

/-- Directories that are no categories are part of the index, but no units come from there. -/
theorem Index.not_agrees_misplacedPackage :
    let s : Source := ⟨"/", .none, []⟩
    (s.units misplacedPackage).map (·.id) = [.repository] ∧
      ∃ index, Index.load .ebuilds misplacedPackage s.root = .ok index ∧
        index.contains "scripts/p" = true ∧
          ¬ index.Agrees .ebuilds misplacedPackage (s.units misplacedPackage) := by
  intro s
  have hfiles : misplacedPackage.root.Proper :=
    .single ⟨by decide, by decide, by decide, by decide⟩
      (.single ⟨by decide, by decide, by decide, by decide⟩ unsortedEntries_proper)
  have hload := Loader.steady_ebuilds misplacedPackage .top
  have htop :
      entriesAt misplacedPackage "/" = [("scripts", .dir [("p", .dir unsortedEntries)])] := rfl
  have hindexed : Indexed .ebuilds misplacedPackage "/" "scripts" "p" "p-1.9.ebuild" :=
    indexed_unsortedEntries (by decide) htop rfl rfl rfl
  have hcontains := contains_of_indexed hfiles .top hload hindexed
  have hkey : "scripts" ++ "/" ++ "p" = "scripts/p" := by decide
  rw [hkey] at hcontains
  have hindex : Index.load .ebuilds misplacedPackage s.root =
      .ok (ofFiles ((ebuildFiles misplacedPackage s.root).filterMap
        (loaded? .ebuilds misplacedPackage))) :=
    load_eq_ok_iff.2 ⟨fun file _ => Loader.ebuilds_ne_crash misplacedPackage file.path, rfl⟩
  have hcategories : s.categories misplacedPackage = [] := by
    rw [List.eq_nil_iff_forall_not_mem]
    intro category hcategory
    obtain ⟨hvisible, hdir⟩ := Source.mem_categories.1 hcategory
    obtain ⟨_, hmem, -⟩ := mem_visibleDirs.1 hvisible
    rw [htop, List.mem_singleton] at hmem
    cases hmem
    exact absurd hdir (by decide)
  have hunits : (s.units misplacedPackage).map (·.id) = [.repository] := by
    rw [Source.units_eq, hcategories]
    rfl
  refine ⟨hunits, _, hindex, hcontains, fun hagrees => ?_⟩
  have hempty : s.restriction.isEmpty = true := rfl
  have htidy := (agrees_ofFiles_iff .ebuilds (s := s) hfiles .top hload hempty).1 hagrees
  obtain ⟨hdir, -⟩ := htidy "scripts" "p" _ hindexed
  exact absurd hdir (by decide)

end Package

end EbuildAudit
