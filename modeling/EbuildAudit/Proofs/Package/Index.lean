import EbuildAudit.Addon.Catalog
import EbuildAudit.Proofs.Ascending
import EbuildAudit.Proofs.Basic

namespace EbuildAudit.Package

open Repository (EbuildFile ebuildFiles)

variable {load : Loader} {files : FileTree} {root key : String} {file : EbuildFile}
  {index : Index}

namespace Index

theorem lookup_ofFiles (found : List (EbuildFile × IndexedVersion)) (key : String) :
    (ofFiles found).packages.lookup key =
      if found.any (·.1.key == key) then
        some (((found.filter (·.1.key == key)).mergeSort byVersion).map (·.2))
      else none := by
  let sorted (versions : List (EbuildFile × IndexedVersion)) : List IndexedVersion :=
    (versions.mergeSort byVersion).map (·.2)
  refine (lookup_map_values sorted key _).trans ?_
  rw [Ascending.lookup_foldl_push (·.1.key) found .nil]
  split <;> rfl

theorem versions_ofFiles (found : List (EbuildFile × IndexedVersion)) (key : String) :
    (ofFiles found).versions key =
      ((found.filter (·.1.key == key)).mergeSort byVersion).map (·.2) := by
  rw [versions, lookup_ofFiles]
  split
  case isTrue => rfl
  case isFalse hany =>
    have hnone : found.filter (·.1.key == key) = [] := by simpa using hany
    simp [hnone]

theorem contains_ofFiles (found : List (EbuildFile × IndexedVersion)) (key : String) :
    (ofFiles found).contains key = found.any (·.1.key == key) := by
  rw [contains, lookup_ofFiles]
  cases found.any (·.1.key == key) <;> rfl

theorem contains_ofFiles_iff (found : List (EbuildFile × IndexedVersion)) (key : String) :
    (ofFiles found).contains key = true ↔ (ofFiles found).versions key ≠ [] := by
  rw [contains_ofFiles, versions_ofFiles, ne_eq, List.map_eq_nil_iff, ← List.length_eq_zero_iff,
    List.length_mergeSort, List.length_eq_zero_iff, List.filter_eq_nil_iff]
  simp

end Index

def loaded? (load : Loader) (files : FileTree) (file : EbuildFile) :
    Option (EbuildFile × IndexedVersion) :=
  (load files file.path).toOption.map fun metadata =>
    (file, ⟨file.version.text, metadata.iuse, metadata.keywords⟩)

theorem loadFile_eq_ok_iff {result : Option (EbuildFile × IndexedVersion)} :
    loadFile load files file = .ok result ↔
      (∀ cause, load files file.path ≠ .error (.crash cause)) ∧ loaded? load files file = result := by
  rw [loadFile, loaded?]
  cases load files file.path with
  | ok metadata => simp [Except.toOption]
  | error fault => cases fault <;> simp [Except.toOption]

theorem mapM_loadFile {found : List EbuildFile}
    {results : List (Option (EbuildFile × IndexedVersion))} :
    found.mapM (loadFile load files) = .ok results ↔
      (∀ file ∈ found, ∀ cause, load files file.path ≠ .error (.crash cause)) ∧
        found.map (loaded? load files) = results := by
  induction found generalizing results with
  | nil => simp [pure, Except.pure]
  | cons file found ih =>
    rw [List.mapM_cons, List.forall_mem_cons, List.map_cons]
    constructor
    · intro h
      obtain ⟨result, hresult, h⟩ := exists_of_bind_eq_ok h
      obtain ⟨others, hothers, h⟩ := exists_of_bind_eq_ok h
      cases h
      obtain ⟨hfile, rfl⟩ := loadFile_eq_ok_iff.1 hresult
      obtain ⟨hfound, rfl⟩ := ih.1 hothers
      exact ⟨⟨hfile, hfound⟩, rfl⟩
    · rintro ⟨⟨hfile, hfound⟩, rfl⟩
      rw [loadFile_eq_ok_iff.2 ⟨hfile, rfl⟩, ih.2 ⟨hfound, rfl⟩]
      rfl

theorem Index.load_eq_ok_iff : Index.load load files root = .ok index ↔
    (∀ file ∈ ebuildFiles files root, ∀ cause, load files file.path ≠ .error (.crash cause)) ∧
      ofFiles ((ebuildFiles files root).filterMap (loaded? load files)) = index := by
  have hresults : (((ebuildFiles files root).map (loaded? load files)).filterMap id) =
      (ebuildFiles files root).filterMap (loaded? load files) := by
    rw [List.filterMap_map]
    rfl
  rw [Index.load]
  constructor
  · intro h
    obtain ⟨results, hmapM, h⟩ := exists_of_bind_eq_ok h
    cases h
    obtain ⟨hcrash, rfl⟩ := mapM_loadFile.1 hmapM
    exact ⟨hcrash, by rw [hresults]⟩
  · rintro ⟨hcrash, rfl⟩
    rw [mapM_loadFile.2 ⟨hcrash, rfl⟩, ← hresults]
    rfl

end EbuildAudit.Package
