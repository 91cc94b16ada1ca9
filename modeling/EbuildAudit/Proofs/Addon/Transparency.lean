import EbuildAudit.Proofs.Addon.Lockstep
import Mathlib.Data.List.Infix
import Mathlib.Data.Set.Image

/-!
Stores that are opened over one cache, as long as the cache is in use. Each of them has a twin that
is asked the same and has no cache. Between the questions the cache may be cleared, and files may
change in any way that does not make up values for the keys in use.
-/

namespace EbuildAudit

/-- A store with a cache, and one without that is asked the same. -/
structure Twins where
  opening : Opening
  cached : Store
  bare : Store

namespace Twins

def ofOpening (c : Cache) (o : Opening) (files : FileTree) : Twins :=
  ⟨o, o.store files (some c), o.store files none⟩

def askCached (t : Twins) (files : FileTree) (id : AddonId) : Outcome × Store :=
  Store.outcome id { t.cached with files }

def askBare (t : Twins) (files : FileTree) (id : AddonId) : Outcome × Store :=
  Store.outcome id { t.bare with files }

def asked (t : Twins) (files bareFiles : FileTree) (id : AddonId) : Twins :=
  ⟨t.opening, (t.askCached files id).2, (t.askBare bareFiles id).2⟩

def dropped (t : Twins) (id : AddonId) : Twins :=
  ⟨t.opening, t.cached.invalidate id, t.bare.invalidate id⟩

end Twins

structure World where
  files : FileTree
  twins : List Twins

def World.opened (w : World) : Set Opening :=
  {o | ∃ t ∈ w.twins, t.opening = o}

/--
What may have happened to a cache and the stores over it. At first nothing counts in it. Later a
change from outside leaves of what counts for a key what it was, or nothing. Questions are asked in
states that belong to the opening.
-/
inductive History (c : Cache) (openings : Set Opening) : World → Prop
  | start {files : FileTree} :
    (∀ o ∈ openings, ∀ addon key, o.Keeps addon key → c.load? files key = none) →
      History c openings ⟨files, []⟩
  | change {files files' : FileTree} {twins : List Twins} : History c openings ⟨files, twins⟩ →
    (∀ o ∈ openings, ∀ addon key, o.Keeps addon key →
      c.load? files' key = none ∨ c.load? files' key = c.load? files key) →
      History c openings ⟨files', twins⟩
  | clear {files : FileTree} {twins : List Twins} : History c openings ⟨files, twins⟩ →
      History c openings ⟨(c.clear files).1, twins⟩
  | opened {files : FileTree} {twins : List Twins} {o : Opening} :
    History c openings ⟨files, twins⟩ → o ∈ openings →
      History c openings ⟨files, .ofOpening c o files :: twins⟩
  | asked {files bareFiles : FileTree} {before after : List Twins} {t : Twins} :
    History c openings ⟨files, before ++ t :: after⟩ → t.opening.states files →
      t.opening.states bareFiles → ∀ id, History c openings
        ⟨(t.askCached files id).2.files, before ++ t.asked files bareFiles id :: after⟩
  | dropped {files : FileTree} {before after : List Twins} {t : Twins} :
    History c openings ⟨files, before ++ t :: after⟩ → ∀ id,
      History c openings ⟨files, before ++ t.dropped id :: after⟩

section

variable {law : Law} {c : Cache} {openings : Set Opening} {o : Opening} {t : Twins}
  {files bareFiles : FileTree} {w : World} {id : AddonId}

structure World.Transparent (law : Law) (c : Cache) (openings : Set Opening) (w : World) :
    Prop where
  honest : Honest law c openings w.opened w.files
  twins (t : Twins) : t ∈ w.twins →
    t.opening ∈ openings ∧ Store.Lockstep law c t.opening t.cached t.bare

theorem Twins.ofOpening_lockstep (law : Law) (c : Cache) (o : Opening) (files : FileTree) :
    Store.Lockstep law c o (ofOpening c o files).cached (ofOpening c o files).bare where
  cached := ⟨rfl, rfl, rfl, rfl⟩
  bare := ⟨rfl, rfl, rfl, rfl⟩
  cache := rfl
  noCache := rfl
  identity _ h := by cases h
  slots := rfl
  sound _ _ h := by cases h

/-- A store over a cache in which the addons do not read. -/
theorem Opening.steady_store {opened : Set Opening} (hlawful : Lawful law c openings)
    (hconsistent : Consistent law openings) (hopened : opened ⊆ openings) (ho : o ∈ opened)
    (hhonest : Honest law c openings opened files) (hfiles : o.states files)
    (hbare : (o.store files none).Steady) : (o.store files (some c)).Steady := by
  have htogether : Store.Together law c openings opened o (o.store files (some c))
      (o.store files none) :=
    { Twins.ofOpening_lockstep law c o files with
      files := hfiles
      bareFiles := hfiles
      honest := hhonest }
  exact htogether.steady hlawful hopened ho hconsistent hbare

theorem Twins.dropped_lockstep (h : Store.Lockstep law c t.opening t.cached t.bare)
    (id : AddonId) : Store.Lockstep law c t.opening (t.dropped id).cached (t.dropped id).bare where
  __ := h
  slots := by rw [dropped, Store.invalidate, Store.invalidate, h.slots]
  sound k value hk := by
    by_cases hne : k = id
    · rw [dropped, Store.invalidate, hne, lookup_filter_self] at hk
      cases hk
    · rw [dropped, Store.invalidate, lookup_filter_of_ne hne] at hk
      exact h.sound k value hk

theorem Twins.asked_together {opened : Set Opening} (hlawful : Lawful law c openings)
    (hconsistent : Consistent law openings) (hopened : opened ⊆ openings)
    (ho : t.opening ∈ opened) (h : Store.Lockstep law c t.opening t.cached t.bare)
    (hhonest : Honest law c openings opened files) (hfiles : t.opening.states files)
    (hbare : t.opening.states bareFiles) (id : AddonId) :
    (t.askCached files id).1 = (t.askBare bareFiles id).1 ∧
      Store.Together law c openings opened t.opening (t.asked files bareFiles id).cached
        (t.asked files bareFiles id).bare := by
  have htogether : Store.Together law c openings opened t.opening { t.cached with files }
      { t.bare with files := bareFiles } :=
    { h with
      files := hfiles
      bareFiles := hbare
      honest := hhonest }
  obtain ⟨hsame, -, hafter⟩ :=
    Store.Together.outcome hlawful hopened ho hconsistent id _ _ htogether
  exact ⟨hsame, hafter⟩

namespace World

theorem mem_opened (ht : t ∈ w.twins) : t.opening ∈ w.opened :=
  ⟨t, ht, rfl⟩

theorem opened_replace {before after : List Twins} {t' : Twins} (ht : t'.opening = t.opening)
    (files files' : FileTree) : opened ⟨files', before ++ t' :: after⟩ =
      opened ⟨files, before ++ t :: after⟩ := by
  ext o
  simp [opened, or_and_right, exists_or, ht]

theorem opened_subset (h : w.Transparent law c openings) : w.opened ⊆ openings := by
  rintro o ⟨t, ht, rfl⟩
  exact (h.twins t ht).1

theorem Transparent.replace {before after : List Twins} {t' : Twins} {files' : FileTree}
    (h : Transparent law c openings ⟨files, before ++ t :: after⟩) (ht : t'.opening = t.opening)
    (hlockstep : Store.Lockstep law c t.opening t'.cached t'.bare)
    (hhonest : Honest law c openings (opened ⟨files, before ++ t :: after⟩) files') :
    Transparent law c openings ⟨files', before ++ t' :: after⟩ where
  honest := by rwa [opened_replace ht files]
  twins u hu := by
    rcases List.mem_append.1 hu with hu | hu
    · exact h.twins u (List.mem_append_left _ hu)
    · rcases List.mem_cons.1 hu with rfl | hu
      · rw [ht]
        exact ⟨(h.twins t (List.mem_append_right _ List.mem_cons_self)).1, hlockstep⟩
      · exact h.twins u (List.mem_append_right _ (List.mem_cons_of_mem _ hu))

end World

theorem History.preserves (hlawful : Lawful law c openings)
    (hconsistent : Consistent law openings) (h : History c openings w) :
    w.Transparent law c openings := by
  induction h with
  | start hnone => exact ⟨.of_none hnone, fun t ht => absurd ht List.not_mem_nil⟩
  | change _ hchange ih =>
    refine ⟨ih.honest.mono fun o ho addon key hkeeps j hj => ?_, ih.twins⟩
    rcases hchange o ho addon key hkeeps with hnone | hsame
    · rw [hnone] at hj
      cases hj
    · rwa [← hsame]
  | clear _ ih => exact ⟨ih.honest.clear, ih.twins⟩
  | @opened files twins o _ ho ih =>
    refine ⟨ih.honest.opened_mono ?_, fun t ht => ?_⟩
    · rintro o ⟨t, ht, rfl⟩
      exact World.mem_opened (List.mem_cons_of_mem _ ht)
    · rcases List.mem_cons.1 ht with rfl | ht
      · exact ⟨ho, Twins.ofOpening_lockstep law c o files⟩
      · exact ih.twins t ht
  | @asked files bareFiles before after t _ hfiles hbare id ih =>
    have ht : t ∈ before ++ t :: after := List.mem_append_right _ List.mem_cons_self
    have hafter := (Twins.asked_together hlawful hconsistent (World.opened_subset ih)
      (World.mem_opened ht) (ih.twins t ht).2 ih.honest hfiles hbare id).2
    exact ih.replace rfl hafter.toLockstep hafter.honest
  | @dropped files before after t _ id ih =>
    have ht : t ∈ before ++ t :: after := List.mem_append_right _ List.mem_cons_self
    exact ih.replace rfl (Twins.dropped_lockstep (ih.twins t ht).2 id) ih.honest

/--
A cache makes no difference to what is answered. All that counts in it for a key was written for
that key, and nothing in it makes an addon ready while one that it depends on is not.
-/
theorem History.transparent (hlawful : Lawful law c openings)
    (hconsistent : Consistent law openings) (hw : History c openings w) (ht : t ∈ w.twins)
    (hfiles : t.opening.states w.files) (hbare : t.opening.states bareFiles) (id : AddonId) :
    (t.askCached w.files id).1 = (t.askBare bareFiles id).1 ∧
      Honest law c openings w.opened w.files ∧
      ∀ addon value, t.opening.addon? id = some addon → t.cached.slots.lookup id = none →
        (t.askCached w.files id).1 = .ready value → ∀ d ∈ addon.dependsOn, ∃ found,
          (Store.outcome d (t.askCached w.files id).2).1 = .ready found := by
  have hinvariant := hw.preserves hlawful hconsistent
  obtain ⟨-, hlockstep⟩ := hinvariant.twins t ht
  have hsame := (Twins.asked_together hlawful hconsistent (World.opened_subset hinvariant)
    (World.mem_opened ht) hlockstep hinvariant.honest hfiles hbare id).1
  refine ⟨hsame, hinvariant.honest, fun addon value haddon hnew hvalue => ?_⟩
  have hlookup : t.cached.addons.lookup id = some addon := by
    rw [hlockstep.cached.1]
    exact haddon
  exact Store.dependencies_ready (s := { t.cached with files := w.files }) hlookup hnew hvalue

end

/-!
A number and a copy of it, both kept between scans of one commit. The number comes with the version
of its written form; the version of the copy stays the same.
-/

namespace Sample

def commit : String :=
  "0123456789012345678901234567890123456789"

def checkedOut : FileTree :=
  ⟨.dir [("r", .dir [(".git", .dir [("HEAD", .file commit.toUTF8 0)])])], []⟩

def cache : Cache :=
  ⟨"c"⟩

def encode : AddonValue → Option Json
  | .number n => if Json.isWord n then some (.int n) else none
  | _ => none

def decode (j : Json) : Option AddonValue :=
  j.asInt?.map .number

def counted (version : Nat) : Addon where
  id := "b"
  dependsOn := []
  persistVersion := some version
  compute _ := .done (.ok (.number version))
  encode
  decode

def copied : Addon where
  id := "a"
  dependsOn := ["b"]
  persistVersion := some 1
  compute _ := .ask "b" fun
    | .ready value => .done (.ok value)
    | _ => .done (.error (.failed "no number"))
  encode
  decode

def opening (version : Nat) : Opening where
  addons := [copied, counted version]
  root := "r"
  settings := ⟨false, none⟩
  load := .ebuilds
  identity := commit
  states files := files.cwd = [] ∧ files.readText "r/.git/HEAD" = .ok commit

def law : Law
  | _, _, _, [value] => .ready value
  | _, _, version, _ => .ready (.number (version.getD 0))

def first : Twins :=
  .ofOpening cache (opening 1) checkedOut

def afterFirst : FileTree :=
  (first.askCached checkedOut "a").2.files

def second (version : Nat) : Twins :=
  .ofOpening cache (opening version) afterFirst

def reopened (version : Nat) : World :=
  ⟨afterFirst, [second version, first.asked checkedOut checkedOut "a"]⟩

variable {version : Nat} {versions : Set Nat} {id : AddonId} {addon : Addon} {key : CacheKey}

theorem eq_of_addon? (h : (opening version).addon? id = some addon) :
    (id = "a" ∧ addon = copied) ∨ (id = "b" ∧ addon = counted version) := by
  rw [Opening.addon?, Addon.lookup_byId] at h
  change [counted version, copied].find? (·.id == id) = some addon at h
  have hid : addon.id = id := by simpa using List.find?_some h
  have hmem := List.mem_of_find?_eq_some h
  simp only [List.mem_cons, List.not_mem_nil, or_false] at hmem
  rcases hmem with rfl | rfl
  · exact .inr ⟨hid.symm, rfl⟩
  · exact .inl ⟨hid.symm, rfl⟩

theorem decode_of_encode {value : AddonValue} {j : Json} (h : encode value = some j) :
    j.Proper ∧ decode j = some value := by
  cases value with
  | number n =>
    simp only [encode, Option.ite_none_right_eq_some, Option.some.injEq] at h
    obtain ⟨hword, rfl⟩ := h
    exact ⟨.int hword, rfl⟩
  | packages index => cases h
  | profiles data => cases h
  | useFlags flags => cases h
  | advisories index => cases h

theorem identity_eq {files : FileTree} (h : files.readText "r/.git/HEAD" = .ok commit) :
    Repository.identity files "r" = commit := by
  have hpath : Path.join (Path.join "r" ".git") "HEAD" = "r/.git/HEAD" := by decide
  have htrim : Text.trim commit = commit := by decide
  have hreference : Text.stripStart? "ref: " commit = none := by decide
  have hcommit : Repository.commitId? commit = some commit := by decide
  have hhead : Repository.headCommit? files "r" = some commit := by
    simp [Repository.headCommit?, hpath, h, htrim, hreference, hcommit, Except.toOption]
  rw [Repository.identity, hhead]
  rfl

theorem spares (haddon : key.addon = "a" ∨ key.addon = "b") {files : FileTree}
    (hcwd : files.cwd = []) (j : Json) : files.Spares "c" (cache.store files key j).1 := by
  have hplace (p : String) : files.place p = FileTree.resolved (FileTree.pathNames p) := by
    rw [FileTree.place, FileTree.namesFromRoot, hcwd]
    split <;> rfl
  refine Cache.store_spares ?_ ?_ ?_ j
  · rw [hplace]
    decide
  · rw [hplace]
    rcases haddon with haddon | haddon <;> rw [haddon] <;> decide
  · rw [hplace]
    rcases haddon with haddon | haddon <;> rw [haddon] <;> decide

theorem states_store (haddon : key.addon = "a" ∨ key.addon = "b") {files : FileTree}
    (h : (opening version).states files) (j : Json) :
    (opening version).states (cache.store files key j).1 := by
  obtain ⟨hcwd, hhead⟩ := h
  have hspares := spares haddon hcwd j
  refine ⟨hspares.cwd.trans hcwd, ?_⟩
  obtain ⟨bytes, hbytes, htext⟩ := FileTree.readText_eq_ok_iff.1 hhead
  refine FileTree.readText_eq_ok_iff.2 ⟨bytes, hspares.kept _ bytes (fun l hl => ?_) hbytes, htext⟩
  have hnames : files.namesFromRoot "r/.git/HEAD" = ["r", ".git", "HEAD"] := by
    rw [FileTree.namesFromRoot, hcwd]
    decide
  have hapart : ∀ l ∈ ["r", ".git", "HEAD"].inits, ¬["c"] <+: FileTree.resolved l := by decide
  rw [hnames] at hl
  exact hapart l ((List.mem_inits _ _).2 hl)

theorem lawful (hversions : ∀ version ∈ versions, version < Envelope.versionBound) :
    Lawful law cache (opening '' versions) where
  name := by
    rintro _ id addon ⟨version, -, rfl⟩ haddon
    rcases eq_of_addon? haddon with ⟨rfl, -⟩ | ⟨rfl, -⟩ <;> decide
  asks := by
    rintro _ id addon ⟨version, -, rfl⟩ haddon s
    rcases eq_of_addon? haddon with ⟨-, rfl⟩ | ⟨-, rfl⟩
    · refine ⟨List.mem_singleton_self _, fun outcome => ?_⟩
      cases outcome <;> trivial
    · trivial
  outcome := by
    rintro _ id addon files ⟨version, -, rfl⟩ haddon - calls values
    rcases eq_of_addon? haddon with ⟨-, rfl⟩ | ⟨-, rfl⟩ <;> rfl
  version := by
    rintro _ addon key ⟨version, hversion, rfl⟩ hkeeps
    have hkey := hkeeps.version
    rcases eq_of_addon? hkeeps.lookup with ⟨-, rfl⟩ | ⟨-, rfl⟩
    · rw [← Option.some.inj hkey]
      decide
    · rw [← Option.some.inj hkey]
      exact hversions version hversion
  codec := by
    rintro _ _ addon addon' key value j ⟨version, -, rfl⟩ ⟨version', -, rfl⟩ hkeeps hkeeps' - hj
    have hencode : addon.encode = encode := by
      rcases eq_of_addon? hkeeps.lookup with ⟨-, rfl⟩ | ⟨-, rfl⟩ <;> rfl
    have hdecode : addon'.decode = decode := by
      rcases eq_of_addon? hkeeps'.lookup with ⟨-, rfl⟩ | ⟨-, rfl⟩ <;> rfl
    rw [hencode] at hj
    rw [hdecode]
    exact decode_of_encode hj
  identity := by
    rintro _ files ⟨version, -, rfl⟩ hfiles
    exact identity_eq hfiles.2
  store := by
    rintro _ addon key files ⟨version, -, rfl⟩ hkeeps hfiles j
    exact states_store ((eq_of_addon? hkeeps.lookup).imp And.left And.left) hfiles j

theorem states_checkedOut : (opening version).states checkedOut :=
  ⟨rfl, by decide⟩

theorem states_afterFirst : (opening version).states afterFirst := by
  have h : afterFirst.cwd = [] ∧ afterFirst.readText "r/.git/HEAD" = .ok commit := by
    decide
  exact h

theorem load?_checkedOut (haddon : key.addon = "a" ∨ key.addon = "b") :
    cache.load? checkedOut key = none := by
  have hread : (checkedOut.readText (cache.path key.addon)).toOption = none := by
    rcases haddon with haddon | haddon <;> rw [haddon] <;> decide
  rw [Cache.load?, hread]
  rfl

theorem unwritten_checkedOut : ∀ o ∈ opening '' versions, ∀ addon key, o.Keeps addon key →
    cache.load? checkedOut key = none := by
  rintro _ ⟨version, -, rfl⟩ addon key hkeeps
  exact load?_checkedOut ((eq_of_addon? hkeeps.lookup).imp And.left And.left)

theorem lawful_one : Lawful law cache (opening '' {1}) :=
  lawful (by simp [Envelope.versionBound])

theorem consistent_one : Consistent law (opening '' {1}) := by
  rw [Set.image_singleton]
  exact consistent_singleton law (opening 1)

theorem history (hfirst : 1 ∈ versions) (hversion : version ∈ versions) :
    History cache (opening '' versions) (reopened version) := by
  have hstart : History cache (opening '' versions) ⟨checkedOut, []⟩ := .start unwritten_checkedOut
  have hopened := hstart.opened (Set.mem_image_of_mem opening hfirst)
  have hasked := @History.asked cache _ checkedOut checkedOut [] [] first hopened
    states_checkedOut states_checkedOut "a"
  exact hasked.opened (Set.mem_image_of_mem opening hversion)

theorem layered : ((opening 1).store checkedOut none).Layered
    fun id => if id = "a" then 1 else 0 := by
  have haddon {id : AddonId} {addon : Addon} (h : (opening 1).addon? id = some addon) :
      (id = "a" ∧ addon = copied) ∨ (id = "b" ∧ addon = counted 1) := eq_of_addon? h
  refine ⟨rfl, fun id => ?_, fun h d hd => ?_, fun h n => ?_, fun h n => ?_⟩
  · change (if id = "a" then 1 else 0) < 4
    split <;> decide
  · rcases haddon h with ⟨rfl, rfl⟩ | ⟨rfl, rfl⟩
    · cases List.mem_singleton.1 hd
      decide
    · cases hd
  · exact lawful_one.asks (Set.mem_image_of_mem opening rfl) h _
  · rcases haddon h with ⟨-, rfl⟩ | ⟨-, rfl⟩ <;> rfl

theorem steady_store : ((opening 1).store checkedOut (some cache)).Steady :=
  Opening.steady_store lawful_one consistent_one subset_rfl (Set.mem_image_of_mem opening rfl)
    (.of_none unwritten_checkedOut) states_checkedOut (layered.fixed rfl).steady

end Sample

section

open Sample

theorem History.transparent_reopened :
    ((second 1).askCached afterFirst "a").1 = ((second 1).askBare checkedOut "a").1 ∧
      ((second 1).askCached afterFirst "a").2.callsOf "a" = 0 ∧
      (cache.load? afterFirst ⟨"a", 1, commit⟩).isSome ∧
      (∀ j, cache.load? afterFirst ⟨"a", 1, commit⟩ = some j →
        Written law (reopened 1).opened ⟨"a", 1, commit⟩ j) ∧
      ∃ value, (Store.outcome "b" ((second 1).askCached afterFirst "a").2).1 = .ready value := by
  have hw : History cache (opening '' {1}) (reopened 1) := history rfl rfl
  have hsecond : second 1 ∈ (reopened 1).twins := List.mem_cons_self
  have hbare : (second 1).opening.states checkedOut := states_checkedOut
  obtain ⟨hsame, hhonest, hready⟩ :=
    History.transparent lawful_one consistent_one hw hsecond states_afterFirst hbare "a"
  have hanswer : ((second 1).askCached afterFirst "a").1 = .ready (.number 1) ∧
      ((second 1).askCached afterFirst "a").2.callsOf "a" = 0 ∧
      (cache.load? afterFirst ⟨"a", 1, commit⟩).isSome := by decide +kernel
  refine ⟨hsame, hanswer.2.1, hanswer.2.2, fun j hj => ?_, ?_⟩
  · exact hhonest (opening 1) ⟨1, rfl, rfl⟩ copied _ ⟨rfl, rfl, rfl⟩ j hj
  · exact hready copied (.number 1) rfl rfl hanswer.1 "b" (List.mem_singleton_self _)

/-- Where a number changes and its copy is kept under the same key, the old number is answered. -/
theorem History.stale_copy :
    Lawful law cache (opening '' {1, 2}) ∧ History cache (opening '' {1, 2}) (reopened 2) ∧
      second 2 ∈ (reopened 2).twins ∧ (second 2).opening.states afterFirst ∧
      ((second 2).askCached afterFirst "a").1 = .ready (.number 1) ∧
      ((second 2).askBare afterFirst "a").1 = .ready (.number 2) := by
  have hanswers : ((second 2).askCached afterFirst "a").1 = .ready (.number 1) ∧
      ((second 2).askBare afterFirst "a").1 = .ready (.number 2) := by decide +kernel
  exact ⟨lawful (by simp [Envelope.versionBound]), history (by simp) (by simp),
    List.mem_cons_self, states_afterFirst, hanswers⟩

end

end EbuildAudit
