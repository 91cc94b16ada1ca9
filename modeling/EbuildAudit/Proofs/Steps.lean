import EbuildAudit.Proofs.Repository.Listing

namespace EbuildAudit

open FileTree (IsName)

namespace Entry

variable {e x : Entry} {up : List Entry} {names : List String} {entries : List (String × Entry)}
  {name : String}

theorem walk_dots : e.walk up names = .ok (.dir entries) ↔
    e.walk up (names.filter (· ≠ ".")) = .ok (.dir entries) := by
  induction names generalizing e up with
  | nil => rfl
  | cons next names ih =>
    by_cases hdot : next = "."
    · rw [List.filter_cons_of_neg (by simpa using hdot)]
      cases e with
      | file bytes modified =>
        cases hrest : names.filter (· ≠ ".") <;> simp [walk]
      | dir here =>
        simpa only [walk, if_pos hdot] using ih
    · rw [List.filter_cons_of_pos (by simpa using hdot)]
      cases e with
      | file bytes modified => simp [walk]
      | dir here =>
        simp only [walk, if_neg hdot]
        by_cases hdots : next = ".."
        · simp only [if_pos hdots]
          cases up <;> exact ih
        · simp only [if_neg hdots]
          cases here.lookup next with
          | none => simp
          | some child => exact ih

theorem walk_append (e : Entry) (up : List Entry) (names : List String) :
    (∃ here above, e.walk up names = .ok here ∧
      ∀ more, e.walk up (names ++ more) = here.walk above more) ∨
    ∃ cause, ∀ more, e.walk up (names ++ more) = .error cause := by
  induction names generalizing e up with
  | nil => exact .inl ⟨e, up, by cases e <;> rfl, fun _ => rfl⟩
  | cons next names ih =>
    cases e with
    | file bytes modified => exact .inr ⟨.notDirectory, fun _ => rfl⟩
    | dir entries =>
      simp only [List.cons_append, walk]
      by_cases hdot : next = "."
      · simpa only [if_pos hdot] using ih _ _
      · by_cases hdots : next = ".."
        · simp only [if_neg hdot, if_pos hdots]
          cases up <;> exact ih _ _
        · simp only [if_neg hdot, if_neg hdots]
          cases entries.lookup next with
          | none => exact .inr ⟨.notFound, fun _ => rfl⟩
          | some child => exact ih _ _

theorem walk_concat (h : IsName name) : e.walk up (names ++ [name]) = .ok x ↔
    ∃ entries, e.walk up names = .ok (.dir entries) ∧ entries.lookup name = some x := by
  rcases walk_append e up names with ⟨here, above, hhere, hmore⟩ | ⟨cause, hmore⟩
  · rw [hmore, hhere]
    cases here with
    | file bytes modified => simp [walk]
    | dir entries =>
      simp only [walk, if_neg h.noDot, if_neg h.noDots]
      cases hlookup : entries.lookup name <;> simp [hlookup]
  · have hhere := hmore []
    rw [List.append_nil] at hhere
    simp [hmore, hhere]

theorem walk_before {more : List String} (h : e.walk up (names ++ more) = .ok (.dir entries)) :
    ∃ entries, e.walk up names = .ok (.dir entries) := by
  rcases walk_append e up names with ⟨here, above, hhere, hmore⟩ | ⟨cause, hmore⟩
  · rw [hmore] at h
    cases here with
    | file bytes modified => cases more <;> simp [walk] at h
    | dir entries => exact ⟨entries, hhere⟩
  · rw [hmore] at h
    cases h

end Entry

namespace FileTree

variable {t : FileTree} {p q dir dir' name part : String} {e : Entry}
  {entries : List (String × Entry)}

def steps (t : FileTree) (dir : String) : List String :=
  (t.namesInto dir).filter (· ≠ ".")

theorem steps_eq (t : FileTree) (dir : String) : t.steps dir =
    (if Path.isAbsolute dir then [] else t.cwd.filter (· ≠ ".")) ++
      (Path.parts dir).filter fun part => part ≠ "" ∧ part ≠ "." := by
  rw [steps, namesInto, List.filter_append, List.filter_filter]
  congr 1
  · split <;> rfl
  · refine List.filter_congr fun part _ => ?_
    by_cases hempty : part = "" <;> simp [hempty]

theorem steps_join (hdir : dir ≠ "") (h : '/' ∉ part.toList) :
    t.steps (Path.join dir part) =
      t.steps dir ++ [part].filter fun part => part ≠ "" ∧ part ≠ "." := by
  rw [steps_eq, steps_eq, Path.isAbsolute_join hdir (Path.isAbsolute_part h), Path.parts_join hdir h,
    List.filter_append, ← List.append_assoc]
  by_cases hempty : part = ""
  · simp [hempty]
  · rw [if_neg hempty]

theorem steps_join_name (hdir : dir ≠ "") (h : IsName name) :
    t.steps (Path.join dir name) = t.steps dir ++ [name] := by
  rw [steps_join hdir h.noSlash, List.filter_cons_of_pos (by simp [h.nonempty, h.noDot]),
    List.filter_nil]

theorem steps_part (h : '/' ∉ part.toList) :
    t.steps part = t.steps "." ++ [part].filter fun part => part ≠ "" ∧ part ≠ "." := by
  have hdot : (Path.parts ".").filter (fun part => part ≠ "" ∧ part ≠ ".") = [] := by decide
  rw [steps_eq, steps_eq, hdot, Path.isAbsolute_part h, Path.isAbsolute_part (by decide),
    Path.parts_of_getLast? fun hlast => h (List.mem_of_getLast? hlast), Path.splitOn_part h,
    List.append_nil]

theorem entry_dir_iff : t.entry p = .ok (.dir entries) ↔
    p ≠ "" ∧ t.root.walk [] (t.steps p) = .ok (.dir entries) := by
  have hdots : (t.namesFromRoot p).filter (· ≠ ".") = t.steps p := by
    rw [namesFromRoot_eq, List.filter_append, ← steps]
    split <;> simp
  rw [entry]
  by_cases hempty : p = ""
  · simp [hempty]
  · rw [if_neg (by simpa using hempty), Entry.walk_dots, hdots]
    simp [hempty]

theorem isDir_iff : t.isDir dir = true ↔ ∃ entries, t.entry dir = .ok (.dir entries) := by
  rw [isDir]
  split
  case h_1 entries hentry => simp [hentry]
  case h_2 hnot => simpa using hnot

theorem isDir_before {more : List String} (hp : p ≠ "") (h : t.steps q = t.steps p ++ more)
    (hq : t.isDir q = true) : t.isDir p = true := by
  obtain ⟨entries, hentry⟩ := isDir_iff.1 hq
  have hwalk := (entry_dir_iff.1 hentry).2
  rw [h] at hwalk
  obtain ⟨entries, hwalk⟩ := Entry.walk_before hwalk
  exact isDir_iff.2 ⟨entries, entry_dir_iff.2 ⟨hp, hwalk⟩⟩

theorem entry_join (hdir : dir ≠ "") (h : IsName name) : t.entry (Path.join dir name) = .ok e ↔
    ∃ entries, t.entry dir = .ok (.dir entries) ∧ entries.lookup name = some e := by
  have hne : (Path.join dir name).isEmpty = false := by
    simpa using (Path.endsWith_join hdir h).nonempty h
  simp only [entry_dir_iff, hdir, ne_eq, not_false_eq_true, true_and]
  rw [entry, hne, if_neg Bool.false_ne_true, namesFromRoot_join t dir h, Entry.walk_concat h]
  exact exists_congr fun entries => and_congr_left' Entry.walk_dots

section

variable (hdir : dir ≠ "") (hdir' : dir' ≠ "") (h : t.steps dir = t.steps dir')
include hdir hdir' h

theorem entry_dir_congr :
    t.entry dir = .ok (.dir entries) ↔ t.entry dir' = .ok (.dir entries) := by
  rw [entry_dir_iff, entry_dir_iff, h]
  simp [hdir, hdir']

theorem entry_join_congr (hname : IsName name) :
    t.entry (Path.join dir name) = .ok e ↔ t.entry (Path.join dir' name) = .ok e := by
  simp only [entry_join hdir hname, entry_join hdir' hname, entry_dir_congr hdir hdir' h]

end

end FileTree

namespace Repository

variable {files : FileTree} {dir dir' : String}

theorem entriesAt_eq (files : FileTree) (dir : String) : entriesAt files dir =
    match files.entry dir with
    | .ok (.dir entries) => entries
    | _ => [] := by
  rw [entriesAt, FileTree.list]
  cases files.entry dir with
  | error => rfl
  | ok e => cases e <;> rfl

theorem entriesAt_of_not_dir (h : files.isDir dir = false) : entriesAt files dir = [] := by
  rw [entriesAt_eq]
  split
  case h_1 entries hentry => simp [FileTree.isDir, hentry] at h
  case h_2 => rfl

theorem entriesAt_congr (hdir : dir ≠ "") (hdir' : dir' ≠ "")
    (h : files.steps dir = files.steps dir') : entriesAt files dir = entriesAt files dir' := by
  rw [entriesAt_eq, entriesAt_eq]
  split
  case h_1 entries hentry => rw [(FileTree.entry_dir_congr hdir hdir' h).1 hentry]
  case h_2 hnot =>
    split
    case h_1 entries hentry =>
      exact absurd ((FileTree.entry_dir_congr hdir hdir' h).2 hentry) (hnot entries)
    case h_2 => rfl

theorem visibleNames_congr (hdir : dir ≠ "") (hdir' : dir' ≠ "")
    (h : files.steps dir = files.steps dir') : visibleNames files dir = visibleNames files dir' := by
  rw [visibleNames, visibleNames, entriesAt_congr hdir hdir' h]

theorem visibleNames_of_not_dir (h : files.isDir dir = false) : visibleNames files dir = [] := by
  simp [visibleNames, entriesAt_of_not_dir h, visible]

end Repository

end EbuildAudit
