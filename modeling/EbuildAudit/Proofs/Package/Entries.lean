import EbuildAudit.Proofs.Package.Index
import EbuildAudit.Proofs.Repository.Search

namespace EbuildAudit

open FileTree (IsName)
open Repository

/-- A loader that reads the same of an ebuild by the path of the search and by that of a scan. -/
def Loader.Steady (load : Loader) (files : FileTree) (root : String) : Prop :=
  ∀ category package name, IsName category → IsName package → IsName name →
    (load files (Path.join (foundDir root category package) name)).toOption =
      (load files (Path.join (Path.join (Path.join root category) package) name)).toOption

theorem Loader.steady_of_clean (load : Loader) (files : FileTree) {root : String}
    (hroot : Clean root) : load.Steady files root :=
  fun category package _ _ _ _ => by rw [hroot.foundDir_eq category package]

theorem Loader.ebuilds_eq_ok_iff {files : FileTree} {path : String} {metadata : Ebuild.Metadata} :
    Loader.ebuilds files path = .ok metadata ↔
      ∃ script, files.readText path = .ok script ∧ Ebuild.parse script = .ok metadata := by
  rw [Loader.ebuilds, Ebuild.load]
  cases files.readText path with
  | error cause => simp [Except.mapError]
  | ok script =>
    simp only [Ebuild.parseAt]
    cases hparse : Ebuild.parse script <;> simp [Except.mapError, hparse]

theorem Loader.ebuilds_ne_crash (files : FileTree) (path : String) (cause : Crash) :
    Loader.ebuilds files path ≠ .error (.crash cause) := by
  rw [Loader.ebuilds]
  cases Ebuild.load files path <;> exact nofun

theorem Loader.steady_ebuilds (files : FileTree) {root : String} (hroot : Plain root) :
    Loader.Steady .ebuilds files root := by
  intro category package name hcategory hpackage hname
  have hdir : foundDir root category package ≠ "" :=
    ((hroot.settled_searchChild hcategory).join hpackage.noSlash).nonempty
  have hcategoryDir := (Path.endsWith_join hroot.nonempty hcategory).nonempty hcategory
  have hdir' := (Path.endsWith_join hcategoryDir hpackage).nonempty hpackage
  refine Option.ext fun metadata => ?_
  simp only [toOption_eq_some_iff, ebuilds_eq_ok_iff, FileTree.readText_eq_ok_iff,
    FileTree.readBytes_eq_ok_iff,
    FileTree.entry_join_congr hdir hdir' (hroot.steps_foundDir files hcategory hpackage) hname]

namespace Package

variable {load : Loader} {files : FileTree} {root category package name : String}

structure Indexed (load : Loader) (files : FileTree) (root category package name : String) :
    Prop where
  top : category ∈ visibleDirs files root
  below : package ∈ visibleDirs files (Path.join root category)
  visible : name ∈ visibleNames files (Path.join (Path.join root category) package)
  ending : (Glob.Pattern.ofEnding ".ebuild").matchesAnyCase name = true
  named : (wellNamed? package name).isSome = true
  loads : ∃ metadata,
    load files (Path.join (Path.join (Path.join root category) package) name) = .ok metadata

def version? (load : Loader) (files : FileTree) (dir : String) (found : Version × String) :
    Option IndexedVersion :=
  (load files (Path.join dir found.2)).toOption.map fun metadata =>
    ⟨found.1.text, metadata.iuse, metadata.keywords⟩

theorem key_inj {category' package' : String} (hcategory : '/' ∉ category.toList)
    (hpackage : '/' ∉ package.toList) (hcategory' : '/' ∉ category'.toList)
    (hpackage' : '/' ∉ package'.toList)
    (h : category ++ "/" ++ package = category' ++ "/" ++ package') :
    category = category' ∧ package = package' := by
  have hsplit := congrArg (Text.splitOn '/') h
  rw [Path.splitOn_slash, Path.splitOn_slash, Path.splitOn_part hcategory, Path.splitOn_part hpackage,
    Path.splitOn_part hcategory', Path.splitOn_part hpackage'] at hsplit
  simpa using hsplit

theorem key_of_mem_foundIn {file : EbuildFile} (h : file ∈ foundIn files root category package) :
    file.key = category ++ "/" ++ package := by
  obtain ⟨found, -, rfl⟩ := List.mem_map.1 h
  rfl

section

variable (hfiles : files.root.Proper) (hroot : Plain root)
include hfiles hroot

theorem filter_ebuildFiles (hcategory : category ∈ visibleDirs files root)
    (hpackage : package ∈ visibleDirs files (Path.join root category)) :
    (ebuildFiles files root).filter (·.key == category ++ "/" ++ package) =
      foundIn files root category package := by
  have hother {category' package' : String} (hcategory' : category' ∈ visibleDirs files root)
      (hpackage' : package' ∈ visibleDirs files (Path.join root category'))
      (hne : ¬(category' = category ∧ package' = package)) :
      (foundIn files root category' package').filter (·.key == category ++ "/" ++ package) = [] := by
    rw [List.filter_eq_nil_iff]
    intro file hfile hkey
    rw [key_of_mem_foundIn hfile, beq_iff_eq] at hkey
    exact hne (key_inj (isName_of_mem_visibleDirs hfiles hcategory').noSlash
      (isName_of_mem_visibleDirs hfiles hpackage').noSlash
      (isName_of_mem_visibleDirs hfiles hcategory).noSlash
      (isName_of_mem_visibleDirs hfiles hpackage).noSlash hkey)
  rw [ebuildFiles_eq hfiles hroot, List.filter_flatMap,
    flatMap_eq_of_mem (nodup_visibleDirs hfiles root) hcategory, List.filter_flatMap,
    flatMap_eq_of_mem (nodup_visibleDirs hfiles _) hpackage, List.filter_eq_self]
  · intro file hfile
    rw [key_of_mem_foundIn hfile, beq_self_eq_true]
  · intro package' hpackage' hne
    exact hother hcategory hpackage' fun h => hne h.2
  · intro category' hcategory' hne
    rw [List.filter_flatMap, List.flatMap_eq_nil_iff]
    intro package' hpackage'
    exact hother hcategory' hpackage' fun h => hne h.1

theorem exists_of_mem_ebuildFiles {file : EbuildFile} (h : file ∈ ebuildFiles files root) :
    ∃ category ∈ visibleDirs files root, ∃ package ∈ visibleDirs files (Path.join root category),
      file.key = category ++ "/" ++ package := by
  rw [ebuildFiles_eq hfiles hroot] at h
  obtain ⟨category, hcategory, h⟩ := List.mem_flatMap.1 h
  obtain ⟨package, hpackage, h⟩ := List.mem_flatMap.1 h
  exact ⟨category, hcategory, package, hpackage, key_of_mem_foundIn h⟩

end

theorem filter_filterMap_loaded? (found : List EbuildFile) (key : String) :
    (found.filterMap (loaded? load files)).filter (·.1.key == key) =
      (found.filter (·.key == key)).filterMap (loaded? load files) := by
  rw [List.filter_filterMap, List.filterMap_filter]
  refine List.filterMap_congr fun file _ => ?_
  rw [loaded?]
  cases (load files file.path).toOption with
  | none => simp
  | some metadata => by_cases hkey : file.key = key <;> simp [Option.filter, hkey]

def known? (load : Loader) (files : FileTree) (dir : String) (found : Version × String) :
    Option ((Version × String) × IndexedVersion) :=
  (version? load files dir found).map fun version => (found, version)

section

variable {dir : String} {a : (Version × String) × IndexedVersion}

theorem of_mem_known (h : a ∈ (namedVersions files dir package).filterMap (known? load files dir)) :
    a.1 ∈ namedVersions files dir package ∧ known? load files dir a.1 = some a := by
  obtain ⟨found, hfound, hknown⟩ := List.mem_filterMap.1 h
  obtain ⟨version, -, rfl⟩ := Option.map_eq_some_iff.1 hknown
  exact ⟨hfound, hknown⟩

theorem numeric_of_mem_known
    (h : a ∈ (namedVersions files dir package).filterMap (known? load files dir)) :
    a.1.1.Numeric :=
  numeric_of_mem_namedVersions (of_mem_known h).1

theorem mergeSort_known (load : Loader) (hfiles : files.root.Proper) (dir package : String) :
    ((namedVersions files dir package).filterMap (known? load files dir)).mergeSort
        (fun a b => a.1.1.notAfter b.1.1) =
      ((namedVersions files dir package).mergeSort Repository.byVersion).filterMap
        (known? load files dir) := by
  have hties : ((namedVersions files dir package).filterMap (known? load files dir)).Pairwise
      fun a b => Repository.byVersion a.1 b.1 = a.1.1.notAfter b.1.1 ∧
        Repository.byVersion b.1 a.1 = (b.1.1.notAfter a.1.1 && !a.1.1.notAfter b.1.1) := by
    rw [List.pairwise_filterMap]
    refine (namedVersions_pairwise hfiles dir package).imp_of_mem fun {a b} ha hb hlt => ?_
    simp only [known?, Option.map_eq_some_iff]
    rintro _ ⟨version, -, rfl⟩ _ ⟨version', -, rfl⟩
    exact byVersion_of_lt (numeric_of_mem_namedVersions ha) (numeric_of_mem_namedVersions hb) hlt
  rw [mergeSort_eq_of_ties (fun a ha => byVersion_self (numeric_of_mem_known ha)) hties]
  refine (filterMap_mergeSort ebuildKey (fun a => ebuildKey a.1) ?_ ?_ ?_ ?_).symm
  · intro a ha b hb
    exact byVersion_eq (numeric_of_mem_namedVersions ha) (numeric_of_mem_namedVersions hb)
  · intro a ha b hb
    exact byVersion_eq (numeric_of_mem_known ha) (numeric_of_mem_known hb)
  · intro found a hknown
    obtain ⟨version, -, rfl⟩ := Option.map_eq_some_iff.1 hknown
    rfl
  · intro a ha b hb heq
    obtain ⟨hmem, hknown⟩ := of_mem_known ha
    obtain ⟨hmem', hknown'⟩ := of_mem_known hb
    rw [eq_of_ebuildKey_eq hmem hmem' heq, hknown'] at hknown
    exact (Option.some_inj.1 hknown).symm

end

theorem loaded_foundIn (hfiles : files.root.Proper) (hload : load.Steady files root)
    (hcategory : IsName category) (hpackage : IsName package) :
    let dir := Path.join (Path.join root category) package
    (foundIn files root category package).filterMap (loaded? load files) =
      ((namedVersions files dir package).filterMap (known? load files dir)).map fun a =>
        (foundFile root category package a.1, a.2) := by
  intro dir
  rw [foundIn, List.filterMap_map, List.map_filterMap]
  refine List.filterMap_congr fun found hfound => ?_
  have hname := isName_of_mem_visibleNames hfiles (mem_namedVersions.1 hfound).1
  rw [Function.comp_apply, loaded?, foundFile,
    hload category package found.2 hcategory hpackage hname, known?, version?, Option.map_map,
    Option.map_map]
  rfl

theorem versions_indexed (hfiles : files.root.Proper) (hroot : Plain root)
    (hload : load.Steady files root) (hcategory : category ∈ visibleDirs files root)
    (hpackage : package ∈ visibleDirs files (Path.join root category)) :
    let dir := Path.join (Path.join root category) package
    (Index.ofFiles ((ebuildFiles files root).filterMap (loaded? load files))).versions
        (category ++ "/" ++ package) =
      ((namedVersions files dir package).mergeSort Repository.byVersion).filterMap
        (version? load files dir) := by
  intro dir
  let known := (namedVersions files dir package).filterMap (known? load files dir)
  let entry (a : (Version × String) × IndexedVersion) : EbuildFile × IndexedVersion :=
    (foundFile root category package a.1, a.2)
  have hsort : (known.map entry).mergeSort byVersion =
      (known.mergeSort fun a b => a.1.1.notAfter b.1.1).map entry :=
    (List.map_mergeSort (f := entry) fun _ _ _ _ => rfl).symm
  rw [Index.versions_ofFiles, filter_filterMap_loaded?,
    filter_ebuildFiles hfiles hroot hcategory hpackage, loaded_foundIn hfiles hload
      (isName_of_mem_visibleDirs hfiles hcategory) (isName_of_mem_visibleDirs hfiles hpackage), hsort,
    mergeSort_known load hfiles, List.map_map, List.map_filterMap]
  refine List.filterMap_congr fun found _ => ?_
  rw [known?, Option.map_map]
  exact Option.map_id'

theorem indexed_iff (hcategory : category ∈ visibleDirs files root)
    (hpackage : package ∈ visibleDirs files (Path.join root category)) :
    let dir := Path.join (Path.join root category) package
    Indexed load files root category package name ↔
      ∃ v, (v, name) ∈ namedVersions files dir package ∧
        (version? load files dir (v, name)).isSome = true := by
  simp only [mem_namedVersions, version?, Option.isSome_map, Option.isSome_iff_exists,
    toOption_eq_some_iff]
  constructor
  · rintro ⟨-, -, hvisible, hending, hnamed, hloads⟩
    obtain ⟨v, hv⟩ := Option.isSome_iff_exists.1 hnamed
    exact ⟨v, ⟨hvisible, hending, hv⟩, hloads⟩
  · rintro ⟨v, ⟨hvisible, hending, hv⟩, hloads⟩
    exact ⟨hcategory, hpackage, hvisible, hending, Option.isSome_iff_exists.2 ⟨v, hv⟩, hloads⟩

theorem contains_of_indexed (hfiles : files.root.Proper) (hroot : Plain root)
    (hload : load.Steady files root) (h : Indexed load files root category package name) :
    (Index.ofFiles ((ebuildFiles files root).filterMap (loaded? load files))).contains
      (category ++ "/" ++ package) = true := by
  obtain ⟨v, hmem, hloads⟩ := (indexed_iff h.top h.below).1 h
  obtain ⟨version, hversion⟩ := Option.isSome_iff_exists.1 hloads
  rw [Index.contains_ofFiles_iff, versions_indexed hfiles hroot hload h.top h.below]
  exact List.ne_nil_of_mem (List.mem_filterMap.2 ⟨(v, name), List.mem_mergeSort.2 hmem, hversion⟩)

end Package

end EbuildAudit
