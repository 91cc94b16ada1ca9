import EbuildAudit.Proofs.Basic
import EbuildAudit.Proofs.Repository.Ebuilds
import EbuildAudit.Proofs.Steps
import EbuildAudit.Repository.Search

/-!
What the search for ebuilds finds. A pattern that starts with the name of a directory is read as the
way to it, and from there on the search goes through what can be seen: the entries of the packages of
whatever directories there are at the top.
-/

namespace EbuildAudit.Repository

open FileTree (IsName)
open Glob (Pattern IsPlain)

variable {files : FileTree} {root path part name : String} {parts : List String} {p : Pattern}
  {ps : List Pattern}

/-! Where a search has come to. -/

structure Settled (path : String) : Prop where
  nonempty : path ≠ ""
  head : Path.isAbsolute path = true ∨ (Path.parts path).head? ≠ some "."

theorem searchChild_dot (name : String) : searchChild "." name = name :=
  if_pos (by decide)

namespace Settled

theorem searchChild_eq (h : Settled path) (name : String) :
    searchChild path name = Path.join path name := by
  refine if_neg fun hcurrent => ?_
  have hmem : Component.current ∈ Path.components path := hcurrent ▸ List.mem_singleton_self _
  have hparts : Component.current ∉ (Text.splitOn '/' path).filterMap Path.component? := by
    rw [List.mem_filterMap]
    rintro ⟨part, -, hpart⟩
    rw [Path.component?.eq_def] at hpart
    split at hpart <;> cases hpart
  rw [Path.components, List.mem_append] at hmem
  rcases h.head with habsolute | hdot
  · simp [habsolute, hparts] at hmem
  · rw [Path.head?_parts] at hdot
    by_cases habsolute : Path.isAbsolute path = true <;> simp [habsolute, hdot, hparts] at hmem

theorem join (h : Settled path) (hpart : '/' ∉ part.toList) : Settled (Path.join path part) where
  nonempty := by
    obtain ⟨front, hjoin, -⟩ := Path.exists_join_eq h.nonempty (Path.isAbsolute_part hpart)
    simp [hjoin]
  head := by
    rw [Path.isAbsolute_join h.nonempty (Path.isAbsolute_part hpart),
      Path.parts_join h.nonempty hpart, List.head?_append_of_ne_nil _ (Path.parts_ne_nil path)]
    exact h.head

theorem of_part (hempty : part ≠ "") (hdot : part ≠ ".") (hpart : '/' ∉ part.toList) :
    Settled part where
  nonempty := hempty
  head := by
    rw [Path.head?_parts, Path.splitOn_part hpart]
    exact .inr (by simpa using hdot)

end Settled

def Stands (path : String) (parts : List String) : Prop :=
  path = "." ∧ (parts.dropWhile (· = ".")).head? ≠ some "" ∨ Settled path

namespace Stands

theorem nonempty (h : Stands path parts) : path ≠ "" := by
  rcases h with ⟨rfl, -⟩ | h
  · decide
  · exact h.nonempty

theorem step (files : FileTree) (h : Stands path (part :: parts)) (hpart : '/' ∉ part.toList) :
    Stands (searchChild path part) parts ∧ files.steps (searchChild path part) =
      files.steps path ++ [part].filter fun part => part ≠ "" ∧ part ≠ "." := by
  rcases h with ⟨rfl, hhead⟩ | h
  · rw [searchChild_dot]
    refine ⟨?_, FileTree.steps_part hpart⟩
    by_cases hdot : part = "."
    · subst hdot
      exact .inl ⟨rfl, hhead⟩
    · exact .inr (.of_part (by simpa [hdot] using hhead) hdot hpart)
  · rw [h.searchChild_eq]
    exact ⟨.inr (h.join hpart), FileTree.steps_join h.nonempty hpart⟩

theorem fold (files : FileTree) (h : Stands path parts) (hparts : ∀ part ∈ parts, '/' ∉ part.toList) :
    Stands (parts.foldl searchChild path) [] ∧ files.steps (parts.foldl searchChild path) =
      files.steps path ++ parts.filter fun part => part ≠ "" ∧ part ≠ "." := by
  induction parts generalizing path with
  | nil => exact ⟨h, by simp⟩
  | cons part parts ih =>
    obtain ⟨hpart, hparts⟩ := List.forall_mem_cons.1 hparts
    obtain ⟨hnext, hsteps⟩ := h.step files hpart
    obtain ⟨hstands, hfold⟩ := ih hnext hparts
    refine ⟨hstands, ?_⟩
    rw [List.foldl_cons, hfold, hsteps, List.append_assoc, ← List.filter_append,
      List.singleton_append]

end Stands

/-! The way through parts without wildcards. -/

theorem searchFrom_wildcards (hrecursive : p.isRecursive = false) (hliteral : p.literal? = none)
    (ps : List Pattern) (path : String) : searchFrom files false (p :: ps) path =
      (searchNames files path p).flatMap (searchFrom files false ps) := by
  simp [searchFrom, hrecursive, hliteral]

theorem searchFrom_part (ps : List Pattern) (path part : String) :
    searchFrom files false (.ofText part :: ps) path =
      (searchStep files path part).flatMap (searchFrom files false ps) := by
  simp [searchFrom, Pattern.isRecursive_ofText, Pattern.literal?_ofText]

theorem searchNames_of_not_dir (h : files.isDir path = false) (p : Pattern) :
    searchNames files path p = [] := by
  rw [searchNames, if_neg (by simp [h])]

theorem searchStep_or (files : FileTree) (path part : String) :
    searchStep files path part = [searchChild path part] ∨ searchStep files path part = [] := by
  simp only [searchStep]
  split <;> split <;> simp

theorem searchStep_of_isDir (h : Stands path (part :: parts))
    (hparts : ∀ other ∈ part :: parts, '/' ∉ other.toList)
    (hdir : files.isDir ((part :: parts).foldl searchChild path) = true) :
    searchStep files path part = [searchChild path part] := by
  obtain ⟨hpart, hrest⟩ := List.forall_mem_cons.1 hparts
  obtain ⟨hnext, hsteps⟩ := h.step files hpart
  have hnextDir : files.isDir (searchChild path part) = true :=
    FileTree.isDir_before hnext.nonempty (hnext.fold files hrest).2 hdir
  have hpathDir : files.isDir path = true := FileTree.isDir_before h.nonempty hsteps hnextDir
  obtain ⟨entries, hentry⟩ := FileTree.isDir_iff.1 hnextDir
  have hexists : files.exists? (searchChild path part) = true := by
    rw [FileTree.exists?, hentry]
    rfl
  simp [searchStep, hpathDir, hexists]

theorem searchFrom_parts (hrecursive : p.isRecursive = false) (hliteral : p.literal? = none)
    (h : Stands path parts) (hparts : ∀ part ∈ parts, '/' ∉ part.toList) :
    searchFrom files false (parts.map .ofText ++ p :: ps) path =
      searchFrom files false (p :: ps) (parts.foldl searchChild path) := by
  induction parts generalizing path with
  | nil => rfl
  | cons part parts ih =>
    obtain ⟨hpart, hrest⟩ := List.forall_mem_cons.1 hparts
    rw [List.map_cons, List.cons_append, searchFrom_part, List.foldl_cons]
    rcases searchStep_or files path part with hstep | hstep
    · rw [hstep, List.flatMap_singleton, ih (h.step files hpart).1 hrest]
    · -- the search has come to an end, and there is no directory to find anything in
      have hdir : files.isDir (parts.foldl searchChild (searchChild path part)) = false := by
        rw [Bool.eq_false_iff]
        intro hdir
        rw [searchStep_of_isDir h hparts hdir] at hstep
        cases hstep
      rw [hstep, List.flatMap_nil, searchFrom_wildcards hrecursive hliteral,
        searchNames_of_not_dir hdir, List.flatMap_nil]

/-! The components of the pattern for ebuilds. -/

def searchParts (root : String) : List String :=
  if Path.isAbsolute root then (Path.parts root).tail else Path.parts root

def searchBase (root : String) : String :=
  (searchParts root).foldl searchChild (if Path.isAbsolute root then "/" else ".")

/--
A directory that a pattern can start with. It has no wildcards in it, and where it starts from the
working directory by its dot there is a name to go on with.
-/
structure Plain (root : String) : Prop where
  nonempty : root ≠ ""
  chars : ∀ c ∈ root.toList, IsPlain c
  named : Path.isAbsolute root = true ∨ ((Path.parts root).dropWhile (· = ".")).head? ≠ some ""

/-- A directory that is written as a search writes it. -/
structure Clean (root : String) : Prop where
  settled : Settled root
  base : searchBase root = root

theorem mem_searchParts (h : part ∈ searchParts root) : part ∈ Path.parts root := by
  rw [searchParts] at h
  split at h
  · exact List.mem_of_mem_tail h
  · exact h

theorem mapM_parse (h : ∀ part ∈ parts, ∀ c ∈ part.toList, IsPlain c) :
    (parts.mapM fun part => (Pattern.parse part).toOption) = some (parts.map Pattern.ofText) := by
  induction parts with
  | nil => rfl
  | cons part parts ih =>
    obtain ⟨hpart, hparts⟩ := List.forall_mem_cons.1 h
    rw [List.mapM_cons, Pattern.parse_plain hpart, ih hparts]
    rfl

namespace Plain

theorem top : Plain "/" where
  nonempty := by decide
  chars c hc := by
    obtain rfl : c = '/' := by simpa using hc
    decide
  named := .inl (by decide)

theorem stands (h : Plain root) :
    Stands (if Path.isAbsolute root then "/" else ".") (searchParts root) := by
  rw [searchParts]
  split
  case isTrue => exact .inr ⟨by decide, .inl (by decide)⟩
  case isFalse hrelative => exact .inl ⟨rfl, h.named.resolve_left hrelative⟩

theorem stands_searchBase (h : Plain root) : Stands (searchBase root) [] :=
  (h.stands.fold .empty fun _ hpart => Path.noSlash_of_mem_parts (mem_searchParts hpart)).1

theorem steps_searchBase (h : Plain root) (files : FileTree) :
    files.steps (searchBase root) = files.steps root := by
  have hfold := (h.stands.fold files fun _ hpart =>
    Path.noSlash_of_mem_parts (mem_searchParts hpart)).2
  rw [← searchBase] at hfold
  rw [hfold, searchParts, FileTree.steps_eq files root]
  split
  case isTrue habsolute =>
    have htop : files.steps "/" = [] := by
      rw [FileTree.steps_eq, if_pos (by decide), List.nil_append]
      decide
    rw [Path.parts_of_isAbsolute habsolute, htop, List.filter_cons_of_neg (by simp), List.tail_cons]
  case isFalse hrelative =>
    have hdot : (Path.parts ".").filter (fun part => part ≠ "" ∧ part ≠ ".") = [] := by decide
    rw [FileTree.steps_eq, hdot, if_neg (by decide), List.append_nil]

theorem patterns?_ebuilds (h : Plain root) : patterns? (Path.join root "*/*/*.ebuild") =
    some ((searchParts root).map .ofText ++ [.ofEnding "", .ofEnding "", .ofEnding ".ebuild"]) := by
  have hrel : Path.isAbsolute "*/*/*.ebuild" = false := by decide
  have hwhole : ∃ p, Pattern.parse (Path.join root "*/*/*.ebuild") = .ok p := by
    obtain ⟨front, hjoin, -, hchars⟩ := Path.exists_join_eq h.nonempty hrel
    have hplain : ∀ c ∈ (front ++ "/").toList, IsPlain c := by
      intro c hc
      rw [String.toList_append, List.mem_append] at hc
      rcases hc with hc | hc
      · exact h.chars c (hchars c hc)
      · obtain rfl : c = '/' := by simpa using hc
        decide
    obtain ⟨position, previous, hread⟩ :=
      Glob.readTokens_plain hplain "*/*/*.ebuild".toList 0 none []
    obtain ⟨tokens, htokens⟩ : ∃ tokens, Glob.readTokens position previous
        (((front ++ "/").toList.map .char).reverse ++ []) none "*/*/*.ebuild".toList = .ok tokens :=
      ⟨_, rfl⟩
    refine ⟨⟨tokens⟩, ?_⟩
    rw [hjoin, Pattern.parse, String.toList_append, hread, htokens]
    rfl
  have hparts : ((if Path.isAbsolute (Path.join root "*/*/*.ebuild") then
      (Text.splitOn '/' (Path.join root "*/*/*.ebuild")).tail
      else Text.splitOn '/' (Path.join root "*/*/*.ebuild")) =
        searchParts root ++ ["*", "*", "*.ebuild"]) := by
    have hsplit : Text.splitOn '/' "*/*/*.ebuild" = ["*", "*", "*.ebuild"] := by decide
    rw [Path.isAbsolute_join h.nonempty hrel, Path.splitOn_join h.nonempty hrel, hsplit, searchParts]
    split
    · rw [List.tail_append_of_ne_nil (Path.parts_ne_nil root)]
    · rfl
  obtain ⟨p, hwhole⟩ := hwhole
  have hplain : ∀ part ∈ searchParts root, ∀ c ∈ part.toList, IsPlain c := fun part hpart c hc =>
    h.chars c (Path.of_mem_parts (mem_searchParts hpart) hc).1
  simp only [patterns?, hwhole, hparts, List.mapM_append, mapM_parse hplain]
  rfl

end Plain

/-! What the wildcards find. -/

theorem searchNames_ofEnding (files : FileTree) (path ending : String) :
    searchNames files path (.ofEnding ending) =
      ((visibleNames files path).filter (Pattern.ofEnding ending).matchesAnyCase).map
        (searchChild path) := by
  rw [searchNames]
  split
  case isTrue => simp [Pattern.ofEnding, visibleNames]
  case isFalse hdir =>
    rw [visibleNames_of_not_dir (Bool.eq_false_iff.2 hdir)]
    rfl

theorem searchNames_star (files : FileTree) (path : String) :
    searchNames files path (.ofEnding "") = (visibleNames files path).map (searchChild path) := by
  rw [searchNames_ofEnding, List.filter_eq_self.2 fun name _ => ?_]
  have hmatches := Glob.Pattern.matchesAnyCase_ofEnding name ""
  rwa [String.append_empty] at hmatches

theorem ebuildPaths_eq (h : Plain root) : ebuildPaths files root =
    (visibleNames files (searchBase root)).flatMap fun category =>
      let dir := searchChild (searchBase root) category
      (visibleNames files dir).flatMap fun package =>
        searchNames files (searchChild dir package) (.ofEnding ".ebuild") := by
  rw [ebuildPaths, search, h.patterns?_ebuilds,
    Path.isAbsolute_join h.nonempty (by decide : Path.isAbsolute "*/*/*.ebuild" = false)]
  dsimp only
  rw [searchFrom_parts (Glob.Pattern.isRecursive_ofEnding _) (Glob.Pattern.literal?_ofEnding _)
    h.stands fun _ hpart => Path.noSlash_of_mem_parts (mem_searchParts hpart), ← searchBase]
  have hend : searchFrom files false [] = fun path => [path] := rfl
  simp only [searchFrom_wildcards (Glob.Pattern.isRecursive_ofEnding _)
    (Glob.Pattern.literal?_ofEnding _), searchNames_star, List.flatMap_map, hend,
    List.flatMap_singleton']

section

variable (hfiles : files.root.Proper)
include hfiles

theorem flatMap_visibleNames {α : Type} {f : String → List α} (hpath : path ≠ "")
    (hf : ∀ name, files.isDir (Path.join path name) = false → f name = []) :
    (visibleNames files path).flatMap f = (visibleDirs files path).flatMap f := by
  rw [visibleNames, visibleDirs, List.flatMap_map, List.flatMap_map]
  refine (flatMap_filter_of fun entry hentry hkeep => hf entry.1 ?_).symm
  have hmem := (mem_visible.1 hentry).1
  have hproper := proper_entriesAt hfiles path
  rw [Bool.eq_false_iff]
  intro hdir
  obtain ⟨below, hbelow⟩ := FileTree.isDir_iff.1 hdir
  obtain ⟨entries, hhere, hlookup⟩ :=
    (FileTree.entry_join hpath (hproper.isName entry hmem)).1 hbelow
  rw [entriesAt_eq, hhere] at hmem hproper
  rw [lookup_of_mem hproper.nodup hmem, Option.some_inj] at hlookup
  rw [hlookup] at hkeep
  cases hkeep

end

def foundDir (root category package : String) : String :=
  Path.join (searchChild (searchBase root) category) package

def foundFile (root category package : String) (found : Version × String) : EbuildFile :=
  ⟨category ++ "/" ++ package, found.1, Path.join (foundDir root category package) found.2⟩

namespace Clean

variable {category package : String}

theorem top : Clean "/" :=
  ⟨⟨by decide, .inl (by decide)⟩, by decide⟩

theorem join (h : Clean root) (hname : IsName name) : Clean (Path.join root name) where
  settled := h.settled.join hname.noSlash
  base := by
    have hparts : searchParts (Path.join root name) = searchParts root ++ [name] := by
      rw [searchParts, searchParts, Path.isAbsolute_join h.settled.nonempty
        (Path.isAbsolute_part hname.noSlash), Path.parts_join h.settled.nonempty hname.noSlash,
        if_neg hname.nonempty]
      split
      · rw [List.tail_append_of_ne_nil (Path.parts_ne_nil root)]
      · rfl
    rw [searchBase, hparts, Path.isAbsolute_join h.settled.nonempty
      (Path.isAbsolute_part hname.noSlash), List.foldl_append, ← searchBase, h.base, List.foldl_cons,
      List.foldl_nil, h.settled.searchChild_eq]

theorem foundDir_eq (h : Clean root) (category package : String) :
    foundDir root category package = Path.join (Path.join root category) package := by
  rw [foundDir, h.base, h.settled.searchChild_eq]

end Clean

def foundIn (files : FileTree) (root category package : String) : List EbuildFile :=
  (namedVersions files (Path.join (Path.join root category) package) package).map
    (foundFile root category package)

theorem ebuildFile?_join {category package : String} (hname : IsName name)
    (hpackage : IsName package) (hcategory : IsName category) (hpath : Path.EndsWith category path) :
    ebuildFile? (Path.join (Path.join path package) name) =
      (wellNamed? package name).map fun version =>
        ⟨category ++ "/" ++ package, version, Path.join (Path.join path package) name⟩ := by
  have hdir := Path.endsWith_join (hpath.nonempty hcategory) hpackage
  have hbelow := Path.endsWith_join (hdir.nonempty hpackage) hname
  simp only [ebuildFile?, Path.fileName?_of_endsWith hname hbelow,
    Path.parent?_join hpackage hdir hname,
    Path.fileName?_of_endsWith hpackage hdir, Path.parent?_join hcategory hpath hpackage,
    Path.fileName?_of_endsWith hcategory hpath, Option.bind_eq_bind, Option.bind_some]
  rw [Option.map_eq_bind]
  rfl

namespace Plain

variable {category package : String}

theorem settled_searchChild (h : Plain root) (hcategory : IsName category) :
    Settled (searchChild (searchBase root) category) := by
  rcases h.stands_searchBase with ⟨hdot, -⟩ | hsettled
  · rw [hdot, searchChild_dot]
    exact .of_part hcategory.nonempty hcategory.noDot hcategory.noSlash
  · rw [hsettled.searchChild_eq]
    exact hsettled.join hcategory.noSlash

theorem endsWith_searchChild (h : Plain root) (hcategory : IsName category) :
    Path.EndsWith category (searchChild (searchBase root) category) := by
  rcases h.stands_searchBase with ⟨hdot, -⟩ | hsettled
  · rw [hdot, searchChild_dot]
    exact .alone
  · rw [hsettled.searchChild_eq]
    exact Path.endsWith_join hsettled.nonempty hcategory

theorem steps_searchChild (h : Plain root) (files : FileTree) (hcategory : IsName category) :
    files.steps (searchChild (searchBase root) category) =
      files.steps (Path.join root category) := by
  have hstep : files.steps (searchChild (searchBase root) category) =
      files.steps (searchBase root) ++ [category] := by
    rcases h.stands_searchBase with ⟨hdot, -⟩ | hsettled
    · rw [hdot, searchChild_dot, FileTree.steps_part hcategory.noSlash,
        List.filter_cons_of_pos (by simp [hcategory.nonempty, hcategory.noDot]), List.filter_nil]
    · rw [hsettled.searchChild_eq, FileTree.steps_join_name hsettled.nonempty hcategory]
  rw [hstep, h.steps_searchBase, FileTree.steps_join_name h.nonempty hcategory]

theorem steps_foundDir (h : Plain root) (files : FileTree) (hcategory : IsName category)
    (hpackage : IsName package) : files.steps (foundDir root category package) =
      files.steps (Path.join (Path.join root category) package) := by
  have hdir := (Path.endsWith_join h.nonempty hcategory).nonempty hcategory
  rw [foundDir, FileTree.steps_join_name (h.settled_searchChild hcategory).nonempty hpackage,
    h.steps_searchChild files hcategory, FileTree.steps_join_name hdir hpackage]

end Plain

section

variable (hfiles : files.root.Proper) (h : Plain root)
include hfiles h

theorem filterMap_searchNames {category package : String} (hcategory : IsName category)
    (hpackage : IsName package) :
    (searchNames files (searchChild (searchChild (searchBase root) category) package)
      (.ofEnding ".ebuild")).filterMap ebuildFile? = foundIn files root category package := by
  have hsettled := h.settled_searchChild hcategory
  have hdir : Settled (foundDir root category package) := hsettled.join hpackage.noSlash
  have hcategoryDir := (Path.endsWith_join h.nonempty hcategory).nonempty hcategory
  have hpackageDir := (Path.endsWith_join hcategoryDir hpackage).nonempty hpackage
  rw [hsettled.searchChild_eq, ← foundDir, searchNames_ofEnding,
    visibleNames_congr hdir.nonempty hpackageDir (h.steps_foundDir files hcategory hpackage), foundIn,
    namedVersions, List.map_filterMap, List.filterMap_map]
  refine List.filterMap_congr fun name hname => ?_
  have hisName := isName_of_mem_visibleNames hfiles (List.mem_filter.1 hname).1
  rw [Function.comp_apply, hdir.searchChild_eq, foundDir,
    ebuildFile?_join hisName hpackage hcategory (h.endsWith_searchChild hcategory), Option.map_map]
  rfl

theorem ebuildFiles_eq : ebuildFiles files root =
    (visibleDirs files root).flatMap fun category =>
      (visibleDirs files (Path.join root category)).flatMap (foundIn files root category) := by
  have hpackage (category package : String)
      (hdir : files.isDir (Path.join (Path.join root category) package) = false) :
      foundIn files root category package = [] := by
    rw [foundIn, namedVersions, visibleNames_of_not_dir hdir]
    rfl
  have hcategory (category : String) (hdir : files.isDir (Path.join root category) = false) :
      (visibleDirs files (Path.join root category)).flatMap (foundIn files root category) = [] := by
    simp [visibleDirs, entriesAt_of_not_dir hdir, visible]
  rw [ebuildFiles, ebuildPaths_eq h, List.filterMap_flatMap,
    visibleNames_congr h.stands_searchBase.nonempty h.nonempty (h.steps_searchBase files),
    ← flatMap_visibleNames hfiles h.nonempty hcategory]
  refine List.flatMap_congr fun category hmem => ?_
  have hname := isName_of_mem_visibleNames hfiles hmem
  have hdir := (Path.endsWith_join h.nonempty hname).nonempty hname
  rw [List.filterMap_flatMap, visibleNames_congr (h.settled_searchChild hname).nonempty hdir
    (h.steps_searchChild files hname), ← flatMap_visibleNames hfiles hdir (hpackage category)]
  refine List.flatMap_congr fun package hmem => ?_
  exact filterMap_searchNames hfiles h hname (isName_of_mem_visibleNames hfiles hmem)

end

end EbuildAudit.Repository
