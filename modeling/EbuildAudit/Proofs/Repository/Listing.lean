import EbuildAudit.Proofs.FileTree
import EbuildAudit.Repository.Source

namespace EbuildAudit

open FileTree (IsName)

namespace Entry

/-- A tree whose directories hold each name once, and nothing that is not a name. -/
inductive Proper : Entry → Prop
  | file (bytes : ByteArray) (modified : Int) : Proper (.file bytes modified)
  | dir {entries : List (String × Entry)} : (entries.map (·.1)).Nodup →
      (∀ entry ∈ entries, IsName entry.1) → (∀ entry ∈ entries, Proper entry.2) →
        Proper (.dir entries)

variable {e e' : Entry} {names : List String} {entries : List (String × Entry)}

theorem Proper.nodup (h : Proper (.dir entries)) : (entries.map (·.1)).Nodup := by
  cases h with
  | dir hnodup => exact hnodup

theorem Proper.isName (h : Proper (.dir entries)) : ∀ entry ∈ entries, IsName entry.1 := by
  cases h with
  | dir _ hnames => exact hnames

theorem Proper.single {name : String} (hname : IsName name) (he : e.Proper) :
    (Entry.dir [(name, e)]).Proper := by
  refine .dir (List.pairwise_singleton _ _) ?_ ?_ <;> intro entry hentry <;>
    obtain rfl := List.mem_singleton.1 hentry
  · exact hname
  · exact he

theorem Proper.get? (h : Proper e) (he : e.get? names = some e') : Proper e' := by
  induction names generalizing e with
  | nil =>
    cases he
    exact h
  | cons name names ih =>
    cases h with
    | file => cases he
    | dir _ _ hentries =>
      rw [get?_dir_cons] at he
      obtain ⟨child, hlookup, he⟩ := Option.bind_eq_some_iff.1 he
      exact ih (hentries _ (mem_of_lookup hlookup)) he

end Entry

namespace Repository

variable {files : FileTree} {path name : String} {entries : List (String × Entry)}
  {entry : String × Entry}

theorem proper_entriesAt (hfiles : files.root.Proper) (path : String) :
    (Entry.dir (entriesAt files path)).Proper := by
  have hempty : (Entry.dir []).Proper := .dir .nil nofun nofun
  rw [entriesAt, FileTree.list]
  cases hentry : files.entry path with
  | error => exact hempty
  | ok e =>
    cases e with
    | file => exact hempty
    | dir entries => exact hfiles.get? (FileTree.entry_eq_ok_iff.1 hentry).2.2

theorem mem_visible : entry ∈ visible entries ↔ entry ∈ entries ∧ isHidden entry.1 = false := by
  simp [visible, List.mem_mergeSort]

theorem nodup_visible (h : (entries.map (·.1)).Nodup) : ((visible entries).map (·.1)).Nodup := by
  rw [visible, ((List.mergeSort_perm _ _).map _).nodup_iff]
  exact h.sublist (List.filter_sublist.map _)

theorem mem_visibleDirs : name ∈ visibleDirs files path ↔
    ∃ entries, (name, .dir entries) ∈ entriesAt files path ∧ isHidden name = false := by
  simp only [visibleDirs, List.mem_map, List.mem_filter, mem_visible]
  constructor
  · rintro ⟨⟨name, e⟩, ⟨⟨hmem, hhidden⟩, hdir⟩, rfl⟩
    cases e with
    | file => cases hdir
    | dir entries => exact ⟨entries, hmem, hhidden⟩
  · rintro ⟨entries, hmem, hhidden⟩
    exact ⟨(name, .dir entries), ⟨⟨hmem, hhidden⟩, rfl⟩, rfl⟩

theorem nodup_visibleDirs (hfiles : files.root.Proper) (path : String) :
    (visibleDirs files path).Nodup :=
  (nodup_visible (proper_entriesAt hfiles path).nodup).sublist (List.filter_sublist.map _)

def visibleNames (files : FileTree) (path : String) : List String :=
  (visible (entriesAt files path)).map (·.1)

theorem mem_visibleNames : name ∈ visibleNames files path ↔
    name ∈ (entriesAt files path).map (·.1) ∧ isHidden name = false := by
  simp only [visibleNames, List.mem_map, mem_visible]
  constructor
  · rintro ⟨entry, ⟨hmem, hhidden⟩, rfl⟩
    exact ⟨⟨entry, hmem, rfl⟩, hhidden⟩
  · rintro ⟨⟨entry, hmem, rfl⟩, hhidden⟩
    exact ⟨entry, ⟨hmem, hhidden⟩, rfl⟩

theorem isName_of_mem (hfiles : files.root.Proper)
    (h : name ∈ (entriesAt files path).map (·.1)) : IsName name := by
  obtain ⟨entry, hentry, rfl⟩ := List.mem_map.1 h
  exact (proper_entriesAt hfiles path).isName entry hentry

theorem isName_of_mem_visibleNames (hfiles : files.root.Proper)
    (h : name ∈ visibleNames files path) : IsName name :=
  isName_of_mem hfiles (mem_visibleNames.1 h).1

theorem visibleNames_pairwise (hfiles : files.root.Proper) (path : String) :
    (visibleNames files path).Pairwise (· < ·) := by
  have hnodup : (visibleNames files path).Nodup :=
    nodup_visible (proper_entriesAt hfiles path).nodup
  have hsorted : (visibleNames files path).Pairwise (· ≤ ·) := by
    have htrans (a b c : String × Entry) (hab : byName a b = true) (hbc : byName b c = true) :
        byName a c = true := by
      simp only [byName, decide_eq_true_eq] at hab hbc ⊢
      exact le_trans hab hbc
    have htotal (a b : String × Entry) : (byName a b || byName b a) = true := by
      simpa [byName] using le_total a.1 b.1
    rw [visibleNames, visible, List.pairwise_map]
    exact (List.pairwise_mergeSort htrans htotal _).imp of_decide_eq_true
  exact (hsorted.and hnodup).imp fun h => lt_of_le_of_ne h.1 h.2

theorem isName_of_mem_visibleDirs (hfiles : files.root.Proper) (h : name ∈ visibleDirs files path) :
    IsName name := by
  obtain ⟨entries, hmem, -⟩ := mem_visibleDirs.1 h
  exact (proper_entriesAt hfiles path).isName _ hmem

end Repository

end EbuildAudit
