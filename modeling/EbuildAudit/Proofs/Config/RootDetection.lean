import EbuildAudit.Config.Effective
import EbuildAudit.Proofs.Parent
import EbuildAudit.Proofs.Steps
import Mathlib.Data.List.Infix

/-!
Where the root of a repository is found. The search goes from a path to its parents as they are
written, which are not all directories above: a relative path leads to the working directory and no
further, and to that only if it begins with a dot.
-/

namespace EbuildAudit

namespace Entry

variable {root e : Entry} {done names : List String} {name : String}
  {entries : List (String × Entry)}

theorem exists_dir_of_get? (h : root.get? (names ++ [name]) = some e) :
    ∃ entries, root.get? names = some (.dir entries) := by
  rw [get?_append] at h
  obtain ⟨above, habove, h⟩ := Option.bind_eq_some_iff.1 h
  cases above with
  | file bytes modified => cases h
  | dir entries => exact ⟨entries, habove⟩

theorem passes_of_get? (hdots : ".." ∉ names)
    (h : root.get? (names.foldl advance done).reverse = some (.dir entries)) :
    Passes root done names := by
  induction names using List.reverseRecOn generalizing entries with
  | nil => trivial
  | append_singleton names name ih =>
    rw [List.mem_append, List.mem_singleton, not_or] at hdots
    rw [List.foldl_append, List.foldl_cons, List.foldl_nil, advance] at h
    rw [passes_concat]
    by_cases hdot : name = "."
    · rw [if_pos hdot] at h
      exact ⟨ih hdots.1 h, entries, h⟩
    · rw [if_neg hdot, if_neg (Ne.symm hdots.2), List.reverse_cons] at h
      obtain ⟨above, habove⟩ := exists_dir_of_get? h
      exact ⟨ih hdots.1 habove, above, habove⟩

end Entry

namespace FileTree

variable {t : FileTree} {dir name : String} {names : List String}

theorem isDir_iff_open (hdir : dir ≠ "") : t.isDir dir = true ↔ t.Open dir := by
  have hempty : dir.isEmpty = false := by simpa using hdir
  have hplace : ((t.namesInto dir).foldl Entry.advance []).reverse = t.place dir := by
    rw [← resolved_eq, resolved_namesInto]
  rw [isDir_iff]
  simp only [entry_eq_ok_iff, hempty, true_and, exists_and_left, namesFromRoot_eq]
  split
  · rw [Entry.passes_concat, hplace]
    exact ⟨fun h => ⟨h.1.1, h.2⟩, fun h => ⟨⟨h.passes, h.isDir⟩, h.isDir⟩⟩
  · rw [List.append_nil]
    exact ⟨fun h => ⟨h.1, h.2⟩, fun h => ⟨h.passes, h.isDir⟩⟩

theorem ne_empty_of_isDir (h : t.isDir dir = true) : dir ≠ "" := by
  obtain ⟨entries, hentry⟩ := isDir_iff.1 h
  exact (entry_dir_iff.1 hentry).1

theorem open_join_iff (h : IsName name) : t.Open (Path.join dir name) ↔
    t.Open dir ∧ ∃ entries, t.root.get? (t.place dir ++ [name]) = some (.dir entries) := by
  rw [← isDir_iff_open (Path.join_ne_empty h.nonempty), isDir_iff]
  simp only [entry_join_iff_open h, exists_and_left]

theorem isFile_eq_true_iff {p : String} :
    t.isFile p = true ↔ ∃ e, t.entry p = .ok e ∧ e.isDir = false := by
  rw [isFile]
  cases t.entry p with
  | error cause => simp
  | ok e => cases e <;> simp [Entry.isDir]

theorem exists?_eq_true_iff {p : String} : t.exists? p = true ↔ ∃ e, t.entry p = .ok e := by
  rw [exists?]
  cases t.entry p <;> simp [Except.toOption]

def holdsFile (t : FileTree) (names : List String) : Bool :=
  (t.root.get? names).any (!·.isDir)

theorem isFile_join_iff (h : IsName name) : t.isFile (Path.join dir name) = true ↔
    t.Open dir ∧ t.holdsFile (t.place dir ++ [name]) = true := by
  simp only [isFile_eq_true_iff, entry_join_iff_open h, and_assoc, exists_and_left, holdsFile]
  cases t.root.get? (t.place dir ++ [name]) <;> simp

theorem exists?_join_iff (h : IsName name) : t.exists? (Path.join dir name) = true ↔
    t.Open dir ∧ (t.root.get? (t.place dir ++ [name])).isSome = true := by
  simp only [exists?_eq_true_iff, entry_join_iff_open h, exists_and_left, Option.isSome_iff_exists]

theorem exists_dir_of_holdsFile (h : t.holdsFile (names ++ [name]) = true) :
    ∃ entries, t.root.get? names = some (.dir entries) := by
  rw [holdsFile] at h
  obtain ⟨e, he, -⟩ := (Option.any_eq_true _ _).1 h
  exact Entry.exists_dir_of_get? he

/-! ## Paths that do not go up -/

theorem resolved_of_dots (hdots : ".." ∉ names) : resolved names = names.filter (· ≠ ".") := by
  induction names using List.reverseRecOn with
  | nil => rfl
  | append_singleton names name ih =>
    rw [List.mem_append, List.mem_singleton, not_or] at hdots
    rw [List.filter_append]
    by_cases hdot : name = "."
    · subst hdot
      rw [resolved_dot, ih hdots.1]
      simp
    · rw [resolved_concat hdot (Ne.symm hdots.2), ih hdots.1]
      simp [hdot]

section

variable (hcwd : ∀ name ∈ t.cwd, IsName name) (hdots : ".." ∉ Path.names dir)
include hcwd hdots

theorem dots_not_mem_namesInto : ".." ∉ t.namesInto dir := by
  rw [namesInto, List.mem_append, not_or]
  refine ⟨fun hmem => ?_, fun hmem => hdots ?_⟩
  · split at hmem
    · cases hmem
    · exact (hcwd _ hmem).noDots rfl
  · exact List.mem_filter.2 ⟨(List.mem_filter.1 hmem).1, by decide⟩

theorem place_eq_names :
    t.place dir = (if Path.isAbsolute dir then [] else t.cwd) ++ Path.names dir := by
  have hfilter : t.cwd.filter (· ≠ ".") = t.cwd :=
    List.filter_eq_self.2 fun name hname => by simpa using (hcwd name hname).noDot
  rw [← resolved_namesInto, resolved_of_dots (dots_not_mem_namesInto hcwd hdots), ← steps, steps_eq,
    hfilter, Path.names]

end

theorem open_iff_of_dots (hdots : ".." ∉ t.namesInto dir) :
    t.Open dir ↔ ∃ entries, t.root.get? (t.place dir) = some (.dir entries) := by
  refine ⟨Open.isDir, fun h => ⟨?_, h⟩⟩
  obtain ⟨entries, h⟩ := h
  rw [← resolved_namesInto, resolved_eq] at h
  exact Entry.passes_of_get? hdots h

end FileTree

namespace Config

open FileTree (IsName)

variable {t : FileTree} {p start : String} {place : List String}

/-- What makes a directory a root: a configuration file, the name of a repository, or a checkout. -/
def isRootAt (t : FileTree) (place : List String) : Bool :=
  fileNames.any (fun name => t.holdsFile (place ++ [name])) ||
    t.holdsFile (place ++ ["profiles"] ++ ["repo_name"]) ||
    (t.root.get? (place ++ [".git"])).isSome

def nearestRoot? (t : FileTree) (place : List String) : Option (List String) :=
  place.inits.reverse.find? (isRootAt t)

/-- A search from a path has to end at the nearest root, or where it began if there is none. -/
def IsNearest (t : FileTree) (start found : String) : Prop :=
  match nearestRoot? t (t.place start) with
  | some place => t.isDir found = true ∧ t.place found = place
  | none => found = start

instance (t : FileTree) (start found : String) : Decidable (IsNearest t start found) :=
  match h : nearestRoot? t (t.place start) with
  | some place =>
    decidable_of_iff (t.isDir found = true ∧ t.place found = place) (by simp only [IsNearest, h])
  | none => decidable_of_iff (found = start) (by simp only [IsNearest, h])

theorem isName_of_mem_fileNames {name : String} (h : name ∈ fileNames) : IsName name := by
  have hnames : name = "pkgscan.toml" ∨ name = "pkgscan.yaml" ∨ name = "pkgscan.yml" := by
    simpa [fileNames] using h
  rcases hnames with rfl | rfl | rfl <;> exact ⟨by decide, by decide, by decide, by decide⟩

theorem isRoot_iff : isRoot t p = true ↔ t.Open p ∧ isRootAt t (t.place p) = true := by
  have hprofiles : IsName "profiles" := ⟨by decide, by decide, by decide, by decide⟩
  have hrepo : IsName "repo_name" := ⟨by decide, by decide, by decide, by decide⟩
  have hgit : IsName ".git" := ⟨by decide, by decide, by decide, by decide⟩
  have hfiles : fileNames.any (fun name => t.isFile (Path.join p name)) = true ↔
      t.Open p ∧ fileNames.any (fun name => t.holdsFile (t.place p ++ [name])) = true := by
    simp only [List.any_eq_true]
    constructor
    · rintro ⟨name, hname, hfile⟩
      obtain ⟨hopen, hfile⟩ := (FileTree.isFile_join_iff (isName_of_mem_fileNames hname)).1 hfile
      exact ⟨hopen, name, hname, hfile⟩
    · rintro ⟨hopen, name, hname, hfile⟩
      refine ⟨name, hname, ?_⟩
      exact (FileTree.isFile_join_iff (isName_of_mem_fileNames hname)).2 ⟨hopen, hfile⟩
  have hnamed : t.isFile (Path.join (Path.join p "profiles") "repo_name") = true ↔
      t.Open p ∧ t.holdsFile (t.place p ++ ["profiles"] ++ ["repo_name"]) = true := by
    rw [FileTree.isFile_join_iff hrepo, FileTree.open_join_iff hprofiles,
      FileTree.place_join hprofiles, and_assoc]
    exact and_congr_right' (and_iff_right_of_imp FileTree.exists_dir_of_holdsFile)
  rw [isRoot, isRootAt, Bool.or_eq_true, Bool.or_eq_true, Bool.or_eq_true, Bool.or_eq_true, hfiles,
    hnamed, FileTree.exists?_join_iff hgit, ← and_or_left, ← and_or_left]

theorem exists_dir_of_isRootAt (h : isRootAt t place = true) :
    ∃ entries, t.root.get? place = some (.dir entries) := by
  rw [isRootAt, Bool.or_eq_true, Bool.or_eq_true] at h
  rcases h with (hfile | hnamed) | hgit
  · obtain ⟨name, -, hfile⟩ := List.any_eq_true.1 hfile
    exact FileTree.exists_dir_of_holdsFile hfile
  · obtain ⟨entries, hprofiles⟩ := FileTree.exists_dir_of_holdsFile hnamed
    exact Entry.exists_dir_of_get? hprofiles
  · obtain ⟨e, hgit⟩ := Option.isSome_iff_exists.1 hgit
    exact Entry.exists_dir_of_get? hgit

/-! ## The nearest root -/

theorem nearestRoot?_concat {name : String} : nearestRoot? t (place ++ [name]) =
    if isRootAt t (place ++ [name]) then some (place ++ [name]) else nearestRoot? t place := by
  have hinits : (place ++ [name]).inits = place.inits ++ [place ++ [name]] := by simp
  rw [nearestRoot?, hinits, List.reverse_concat, List.find?_cons, ← nearestRoot?]
  split <;> simp_all

theorem nearestRoot?_self (h : isRootAt t place = true) : nearestRoot? t place = some place := by
  cases place using List.reverseRecOn with
  | nil => simp [nearestRoot?, h]
  | append_singleton place name => rw [nearestRoot?_concat, if_pos h]

theorem of_nearestRoot? {near : List String} (h : nearestRoot? t place = some near) :
    near <+: place ∧ isRootAt t near = true :=
  ⟨(List.mem_inits _ _).1 (List.mem_reverse.1 (List.mem_of_find?_eq_some h)), List.find?_some h⟩

theorem nearestRoot?_ne_none {near : List String} (hinit : near <+: place)
    (h : isRootAt t near = true) : nearestRoot? t place ≠ none := fun hnone =>
  List.find?_eq_none.1 hnone near (List.mem_reverse.2 ((List.mem_inits _ _).2 hinit)) h

/-! ## The search -/

def found? (t : FileTree) (p : String) : Option String :=
  (Path.climb p).find? (isRoot t)

theorem found?_eq (t : FileTree) (p : String) :
    found? t p = if isRoot t p then some p else (Path.parent? p).bind (found? t) := by
  rw [found?, Path.climb_eq, List.find?_cons]
  cases isRoot t p with
  | true => rfl
  | false => cases Path.parent? p <;> rfl

theorem rootAbove?_eq {n : Nat} (h : p.length < n) : rootAbove? t n p = found? t p := by
  induction n generalizing p with
  | zero => cases h
  | succ n ih =>
    rw [rootAbove?, found?_eq]
    refine ite_congr rfl (fun _ => rfl) fun _ => Option.bind_congr fun q hq => ?_
    have hshorter := Path.length_parent? hq
    exact ih (by omega)

theorem detectRoot_eq (t : FileTree) (start : String) :
    detectRoot t start = (found? t start).getD start := by
  rw [detectRoot, rootAbove?_eq (Nat.lt_succ_self _)]

theorem of_found? {r : String} (h : found? t p = some r) : isRoot t r = true :=
  List.find?_some h

theorem isNearest_detectRoot_iff : IsNearest t start (detectRoot t start) ↔
    match found? t start with
    | some r => r ≠ "" ∧ nearestRoot? t (t.place start) = some (t.place r)
    | none => nearestRoot? t (t.place start) = none := by
  rw [IsNearest, detectRoot_eq]
  cases hfound : found? t start with
  | some r =>
    obtain ⟨hopen, hplace⟩ := isRoot_iff.1 (of_found? hfound)
    cases hnear : nearestRoot? t (t.place start) with
    | none =>
      simp only [Option.getD_some, reduceCtorEq, and_false, iff_false]
      rintro rfl
      rw [nearestRoot?_self hplace] at hnear
      cases hnear
    | some near =>
      simp only [Option.getD_some, Option.some.injEq]
      exact ⟨fun ⟨hdir, hthere⟩ => ⟨FileTree.ne_empty_of_isDir hdir, hthere.symm⟩,
        fun ⟨hne, hthere⟩ => ⟨(FileTree.isDir_iff_open hne).2 hopen, hthere.symm⟩⟩
  | none =>
    cases hnear : nearestRoot? t (t.place start) with
    | none => simp
    | some near =>
      simp only [Option.getD_none, reduceCtorEq, iff_false]
      rintro ⟨hdir, rfl⟩
      have hopen := (FileTree.isDir_iff_open (FileTree.ne_empty_of_isDir hdir)).1 hdir
      rw [found?_eq, if_pos (isRoot_iff.2 ⟨hopen, (of_nearestRoot? hnear).2⟩)] at hfound
      cases hfound

/-- The fewest names on the way to a root that the search from a path can answer with. -/
def reach (t : FileTree) (start : String) : Nat :=
  if Path.isAbsolute start then 0
  else if Path.isDotted start then t.cwd.length
  else t.cwd.length + 1

section

variable (hcwd : ∀ name ∈ t.cwd, IsName name) (hdots : ".." ∉ Path.names p)
include hcwd hdots

theorem isRoot_eq : isRoot t p = isRootAt t (t.place p) := by
  rw [Bool.eq_iff_iff, isRoot_iff,
    FileTree.open_iff_of_dots (FileTree.dots_not_mem_namesInto hcwd hdots)]
  exact and_iff_right_of_imp exists_dir_of_isRootAt

theorem reach_le_length_iff : reach t p ≤ (t.place p).length ↔ p ≠ "" := by
  rw [FileTree.place_eq_names hcwd hdots, List.length_append]
  by_cases hne : p = ""
  · have hnames : Path.names "" = [] := by decide
    have hreach : reach t "" = t.cwd.length + 1 := rfl
    have hbase : (if Path.isAbsolute "" then [] else t.cwd) = t.cwd := rfl
    simp [hne, hnames, hreach, hbase]
  · refine iff_of_true ?_ hne
    rw [reach]
    cases habsolute : Path.isAbsolute p with
    | true => exact Nat.zero_le _
    | false =>
      cases hdotted : Path.isDotted p with
      | true => exact Nat.le_add_right _ _
      | false =>
        have hpos := List.length_pos_of_ne_nil (Path.names_ne_nil hne habsolute hdotted)
        exact Nat.add_le_add_left hpos _

theorem length_le_reach (hnames : Path.names p = []) : (t.place p).length ≤ reach t p := by
  rw [FileTree.place_eq_names hcwd hdots, hnames, List.append_nil, reach]
  split
  · exact Nat.le_refl _
  · split
    · exact Nat.le_refl _
    · exact Nat.le_succ _

theorem length_lt_reach {near : List String} (hnames : Path.names p = [])
    (hroot : ¬isRootAt t (t.place p) = true) (h : nearestRoot? t (t.place p) = some near) :
    near.length < reach t p := by
  obtain ⟨hinit, hnear⟩ := of_nearestRoot? h
  have hne : near ≠ t.place p := fun hsame => hroot (hsame ▸ hnear)
  calc near.length
      < (t.place p).length :=
        lt_of_le_of_ne hinit.length_le fun hlength => hne (hinit.eq_of_length hlength)
    _ ≤ reach t p := length_le_reach hcwd hdots hnames

theorem place_parent? {q : String} (hparent : Path.parent? p = some q) :
    ".." ∉ Path.names q ∧
      ((q = "" ∧ Path.names p = [] ∧ t.place q = t.place p) ∨
        ∃ name, t.place p = t.place q ++ [name] ∧ reach t p = reach t q) := by
  have hcase := Path.hasParent_parent? p
  rw [hparent] at hcase
  cases hcase with
  | dot hnames habsolute =>
    refine ⟨by decide, .inl ⟨rfl, hnames, ?_⟩⟩
    rw [FileTree.place_eq_names hcwd hdots, FileTree.place_eq_names hcwd (by decide), hnames,
      habsolute]
    rfl
  | up hne hnames habsolute hdotted =>
    have hdots' : ".." ∉ Path.names q := fun hmem =>
      hdots (List.mem_of_mem_dropLast (hnames ▸ hmem))
    refine ⟨hdots', .inr ⟨(Path.names p).getLast hne, ?_, by rw [reach, reach, habsolute, hdotted]⟩⟩
    rw [FileTree.place_eq_names hcwd hdots, FileTree.place_eq_names hcwd hdots', habsolute, hnames,
      List.append_assoc, List.dropLast_append_getLast]

theorem place_prefix_of_found? {r : String} (h : found? t p = some r) :
    t.place r <+: t.place p := by
  induction hlength : p.length using Nat.strongRecOn generalizing p with
  | ind n ih =>
    rw [found?_eq] at h
    split at h
    case isTrue =>
      cases h
      exact List.prefix_rfl
    case isFalse =>
      obtain ⟨q, hparent, h⟩ := Option.bind_eq_some_iff.1 h
      obtain ⟨hdots', hplace⟩ := place_parent? hcwd hdots hparent
      have hinit := ih q.length (hlength ▸ Path.length_parent? hparent) hdots' h rfl
      rcases hplace with ⟨-, -, hsame⟩ | ⟨name, hbelow, -⟩
      · rwa [hsame] at hinit
      · rw [hbelow]
        exact hinit.trans (List.prefix_append _ _)

/-- The search finds the nearest root, unless that is above what the path leads through. -/
theorem map_place_found? : ((found? t p).filter (· ≠ "")).map t.place =
    (nearestRoot? t (t.place p)).filter (reach t p ≤ ·.length) := by
  induction hlength : p.length using Nat.strongRecOn generalizing p with
  | ind n ih =>
    rw [found?_eq, isRoot_eq hcwd hdots]
    by_cases hroot : isRootAt t (t.place p) = true
    · rw [if_pos hroot, nearestRoot?_self hroot, Option.filter_some, Option.filter_some]
      simp only [decide_eq_true_eq, reach_le_length_iff hcwd hdots]
      split <;> rfl
    · rw [if_neg hroot]
      have habove (hnames : Path.names p = []) :
          (nearestRoot? t (t.place p)).filter (reach t p ≤ ·.length) = none := by
        refine Option.filter_eq_none_iff.2 fun near hnear => ?_
        simpa using length_lt_reach hcwd hdots hnames hroot hnear
      cases hparent : Path.parent? p with
      | none => exact (habove (Path.names_of_parent?_eq_none hparent)).symm
      | some q =>
        rw [Option.bind_some]
        obtain ⟨hdots', ⟨rfl, hnames, hsame⟩ | ⟨name, hbelow, hreach⟩⟩ :=
          place_parent? hcwd hdots hparent
        · have htop : Path.parent? "" = none := by decide
          rw [habove hnames, found?_eq, isRoot_eq hcwd hdots', hsame, if_neg hroot, htop]
          rfl
        · have hnear : nearestRoot? t (t.place p) = nearestRoot? t (t.place q) := by
            rw [hbelow] at hroot ⊢
            rw [nearestRoot?_concat, if_neg hroot]
          rw [hnear, hreach]
          exact ih q.length (hlength ▸ Path.length_parent? hparent) hdots' rfl

theorem isNearest_iff_of_dots : IsNearest t p (detectRoot t p) ↔
    ∀ near, nearestRoot? t (t.place p) = some near → reach t p ≤ near.length := by
  have hfound := map_place_found? hcwd hdots
  rw [isNearest_detectRoot_iff]
  cases hnear : nearestRoot? t (t.place p) with
  | none =>
    cases hr : found? t p with
    | none => simp
    | some r =>
      exact absurd hnear (nearestRoot?_ne_none (place_prefix_of_found? hcwd hdots hr)
        (isRoot_iff.1 (of_found? hr)).2)
  | some near =>
    rw [hnear, Option.filter_some] at hfound
    simp only [Option.some.injEq, forall_eq']
    by_cases hreach : reach t p ≤ near.length
    · rw [if_pos (decide_eq_true hreach), Option.map_eq_some_iff] at hfound
      obtain ⟨r, hr, hplace⟩ := hfound
      obtain ⟨hr, hne⟩ := Option.filter_eq_some_iff.1 hr
      simp only [hr]
      exact iff_of_true ⟨of_decide_eq_true hne, hplace.symm⟩ hreach
    · rw [if_neg (by simpa using hreach), Option.map_eq_none_iff,
        Option.filter_eq_none_iff] at hfound
      refine iff_of_false (fun h => ?_) hreach
      split at h
      case h_1 r hr => exact hfound r hr (decide_eq_true h.1)
      case h_2 => cases h

end

/-! ## The configuration -/

theorem loadSettings_path {root : String} {loaded : Option (String × Settings)}
    (h : loadSettings t root = .ok loaded) :
    loaded.map (·.1) = (fileNames.map (Path.join root)).find? t.isFile := by
  have hpaths : (fileNames.map (Path.join root)).find? t.isFile =
      (fileNames.find? fun name => t.isFile (Path.join root name)).map (Path.join root) :=
    List.find?_map
  rw [hpaths]
  simp only [loadSettings] at h
  split at h
  case h_1 hnone =>
    cases h
    rw [hnone]
    rfl
  case h_2 name hname =>
    split at h
    case h_1 =>
      cases h
      rw [hname]
      rfl
    case h_2 => cases h

theorem resolve_of_loadSettings_error {cli : Overrides} {fault : InvalidConfig}
    (h : loadSettings t (detectRoot t (cli.repoRoot.getD ".")) = .error fault) :
    Effective.resolve t cli = .error fault := by
  rw [Effective.resolve, h]
  rfl

theorem resolve_of_loadSettings_ok {cli : Overrides} {loaded : Option (String × Settings)}
    {e : Effective} (h : loadSettings t (detectRoot t (cli.repoRoot.getD ".")) = .ok loaded)
    (he : Effective.resolve t cli = .ok e) :
    e.repoRoot = detectRoot t (cli.repoRoot.getD ".") ∧ e.configPath = loaded.map (·.1) := by
  simp only [Effective.resolve, h, bind, Except.bind, pure, Except.pure] at he
  split at he
  case h_1 => cases he
  case h_2 =>
    cases he
    exact ⟨rfl, rfl⟩

/--
The search for a root comes to an end, with the first of a path and its parents that is a root. The
answer is right if this is the nearest root and not the empty path. For a path that does not go up it
is right if and only if the nearest root is within reach. So it always is for an absolute path. For a
relative one the nearest root must not be above the working directory, and it must not be this
directory unless the path begins with a dot. The configuration is that of the root which was found.
-/
theorem detectRoot_isNearest_iff (t : FileTree) (start : String)
    (hcwd : ∀ name ∈ t.cwd, IsName name) :
    detectRoot t start = ((Path.climb start).find? (isRoot t)).getD start ∧
      (IsNearest t start (detectRoot t start) ↔
        match (Path.climb start).find? (isRoot t) with
        | some r => r ≠ "" ∧ nearestRoot? t (t.place start) = some (t.place r)
        | none => nearestRoot? t (t.place start) = none) ∧
      (".." ∉ Path.names start → (IsNearest t start (detectRoot t start) ↔
        ∀ near, nearestRoot? t (t.place start) = some near → reach t start ≤ near.length)) ∧
      ∀ cli : Overrides, cli.repoRoot.getD "." = start →
        match loadSettings t (detectRoot t start) with
        | .error fault => Effective.resolve t cli = .error fault
        | .ok loaded =>
          loaded.map (·.1) =
              (fileNames.map (Path.join (detectRoot t start))).find? t.isFile ∧
            ∀ e, Effective.resolve t cli = .ok e →
              e.repoRoot = detectRoot t start ∧ e.configPath = loaded.map (·.1) := by
  refine ⟨detectRoot_eq t start, isNearest_detectRoot_iff, isNearest_iff_of_dots hcwd,
    fun cli hcli => ?_⟩
  subst hcli
  cases hloaded : loadSettings t (detectRoot t (cli.repoRoot.getD ".")) with
  | error fault => exact resolve_of_loadSettings_error hloaded
  | ok loaded =>
    exact ⟨loadSettings_path hloaded, fun e he => resolve_of_loadSettings_ok hloaded he⟩

def nestedTree : FileTree where
  root := .dir [("a", .dir []), ("profiles", .dir [("repo_name", .file "r\n".toUTF8 0)])]
  cwd := ["a"]

theorem detectRoot_isNearest_nestedTree : (∀ name ∈ nestedTree.cwd, IsName name) ∧
    ".." ∉ Path.names "/a" ∧ nearestRoot? nestedTree (nestedTree.place "/a") = some [] ∧
      IsNearest nestedTree "/a" (detectRoot nestedTree "/a") := by
  have hcwd : ∀ name ∈ nestedTree.cwd, IsName name := by
    intro name hname
    obtain rfl := List.mem_singleton.1 hname
    exact ⟨by decide, by decide, by decide, by decide⟩
  exact ⟨hcwd, by decide, by decide +kernel,
    ((detectRoot_isNearest_iff nestedTree "/a" hcwd).2.2.1 (by decide)).2
      fun near _ => Nat.zero_le near.length⟩

/-- The repository is not found from the directory in it, and not from above by the name of that. -/
theorem not_isNearest_nestedTree :
    nearestRoot? nestedTree (nestedTree.place ".") = some [] ∧
      ¬IsNearest nestedTree "." (detectRoot nestedTree ".") ∧
      ¬IsNearest ⟨nestedTree.root, []⟩ "a" (detectRoot ⟨nestedTree.root, []⟩ "a") := by
  decide +kernel

end Config

end EbuildAudit
