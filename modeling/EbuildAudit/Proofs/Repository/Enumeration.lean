import EbuildAudit.Proofs.Basic
import EbuildAudit.Proofs.Repository.Ebuilds
import EbuildAudit.Proofs.Scan.Conservation

/-!
The units of a repository. No unit comes twice, each one comes after all that lie below it and knows
their number, and the versions of a package stand together right before it, the oldest first. So the
dispatcher counts for every package the versions that it has.
-/

namespace EbuildAudit

def below (units : List ScanUnit) (id : UnitId) : List ScanUnit :=
  units.filter (·.parent? == some id)

def ScanUnit.NotNewer (a b : ScanUnit) : Prop :=
  ∃ category package text text' v w, a.id = .version category package text ∧
    b.id = .version category package text' ∧ Version.parse? text = some v ∧
      Version.parse? text' = some w ∧ v.order w ≠ .gt

/-- What may come after a unit: another one, which does not lie above what lies below it. -/
structure ScanUnit.Precedes (a b : ScanUnit) : Prop where
  distinct : a.id ≠ b.id
  notBelow : b.parent? ≠ some a.id
  last : a.id = .repository → b.scope = .commit

structure Enumerated (r : Restriction) (units : List ScanUnit) : Prop where
  nodup : (units.map (·.id)).Nodup
  above : units.Pairwise fun a b => b.parent? ≠ some a.id
  owned : ∀ unit ∈ units, unit.scope = .version → ∃ package ∈ units, unit.parent? = some package.id
  versions : ∀ unit ∈ units, unit.scope = .package →
    below units unit.id ++ [unit] <:+: units ∧ (below units unit.id).Pairwise ScanUnit.NotNewer
  children : ∀ unit ∈ units, unit.children = (below units unit.id).length
  repository : (∃ unit ∈ units, unit.id = .repository) ↔ r.isEmpty = true
  last : units.Pairwise fun a b => a.id = .repository → b.scope = .commit

variable {units more : List ScanUnit} {unit a b : ScanUnit} {id : UnitId} {n : Nat}

@[simp] theorem below_append : below (units ++ more) id = below units id ++ below more id :=
  List.filter_append ..

@[simp] theorem below_flatMap {α : Type} (l : List α) (f : α → List ScanUnit) :
    below (l.flatMap f) id = l.flatMap fun x => below (f x) id :=
  List.filter_flatMap

theorem below_eq_nil (h : ∀ unit ∈ units, unit.parent? ≠ some id) : below units id = [] := by
  simpa [below, List.filter_eq_nil_iff] using h

theorem below_eq_self (h : ∀ unit ∈ units, unit.parent? = some id) : below units id = units := by
  simpa [below, List.filter_eq_self] using h

theorem UnitId.category?_parent {parent : UnitId} {category : String}
    (h : id.category? = some category) (hp : id.parent? = some parent) :
    parent.category? = some category ∨ parent = .repository := by
  cases id <;> simp_all [UnitId.category?, UnitId.parent?]
  all_goals
    subst hp
    simp

namespace Repository.Source

variable {files : FileTree} {s : Source} {root category package hash : String}

def packages (files : FileTree) (s : Source) (category : String) : List String :=
  (visibleDirs files (Path.join s.root category)).filter (s.restriction.allowsPackage category)

theorem mem_categories : category ∈ s.categories files ↔
    category ∈ visibleDirs files s.root ∧ isCategoryDir category = true :=
  List.mem_filter

theorem mem_packages (hempty : s.restriction.isEmpty = true) :
    package ∈ s.packages files category ↔
      package ∈ visibleDirs files (Path.join s.root category) := by
  rw [Source.packages, List.mem_filter, and_iff_left_iff_imp]
  intro
  simp [Restriction.allowsPackage, Restriction.allowsCategory, hempty]

def versionUnits (files : FileTree) (root category package : String) : List ScanUnit :=
  (packageVersions files (Path.join (Path.join root category) package) package).map
    fun (version, path) => ⟨.version category package version.text, path, 0⟩

def packageUnit (files : FileTree) (root category package : String) : ScanUnit :=
  ⟨.package category package, Path.join (Path.join root category) package,
    (versionUnits files root category package).length⟩

def categoryUnit (files : FileTree) (s : Source) (category : String) : ScanUnit :=
  ⟨.category category, Path.join s.root category, (s.packages files category).length⟩

def repositoryUnit (files : FileTree) (s : Source) : ScanUnit :=
  ⟨.repository, s.root, (s.categories files).length⟩

def commitUnit (s : Source) (hash : String) : ScanUnit :=
  ⟨.commit hash, s.root, 0⟩

theorem packageUnits_eq (files : FileTree) (root category package : String) :
    packageUnits files root category package =
      versionUnits files root category package ++ [packageUnit files root category package] := by
  rw [packageUnit, versionUnits, List.length_map]
  rfl

theorem categoryUnits_eq (files : FileTree) (s : Source) (category : String) :
    s.categoryUnits files category =
      (s.packages files category).flatMap (packageUnits files s.root category) ++
        if s.restriction.allowsCategory category then [categoryUnit files s category] else [] :=
  rfl

theorem units_eq (files : FileTree) (s : Source) : s.units files =
    (s.categories files).flatMap (s.categoryUnits files) ++
      (if s.restriction.isEmpty then [repositoryUnit files s] else []) ++
        s.commits.map s.commitUnit :=
  rfl

theorem id_of_mem_versionUnits (h : unit ∈ versionUnits files root category package) :
    ∃ version path, (version, path) ∈
        packageVersions files (Path.join (Path.join root category) package) package ∧
      unit = ⟨.version category package version.text, path, 0⟩ := by
  obtain ⟨⟨version, path⟩, hmem, rfl⟩ := List.mem_map.1 h
  exact ⟨version, path, hmem, rfl⟩

theorem id_of_mem_packageUnits (h : unit ∈ packageUnits files root category package) :
    (∃ text, unit.id = .version category package text) ∨ unit.id = .package category package := by
  rw [packageUnits_eq, List.mem_append, List.mem_singleton] at h
  rcases h with h | rfl
  · obtain ⟨version, path, -, rfl⟩ := id_of_mem_versionUnits h
    exact .inl ⟨_, rfl⟩
  · exact .inr rfl

theorem mem_categoryUnits : unit ∈ s.categoryUnits files category ↔
    (∃ package ∈ s.packages files category, unit ∈ packageUnits files s.root category package) ∨
      s.restriction.allowsCategory category = true ∧ unit = categoryUnit files s category := by
  rw [categoryUnits_eq, List.mem_append, List.mem_flatMap]
  split <;> simp_all

theorem category?_of_mem (h : unit ∈ s.categoryUnits files category) :
    unit.id.category? = some category := by
  rcases mem_categoryUnits.1 h with ⟨package, -, h⟩ | ⟨-, rfl⟩
  · rcases id_of_mem_packageUnits h with ⟨text, hid⟩ | hid
    all_goals
      rw [hid]
      rfl
  · rfl

theorem mem_units : unit ∈ s.units files ↔
    (∃ category ∈ s.categories files, unit ∈ s.categoryUnits files category) ∨
      s.restriction.isEmpty = true ∧ unit = repositoryUnit files s ∨
        ∃ hash ∈ s.commits, unit = s.commitUnit hash := by
  rw [units_eq, List.mem_append, List.mem_append, List.mem_flatMap, List.mem_map, or_assoc]
  simp only [eq_comm (b := unit)]
  split
  case isTrue hempty => simp only [List.mem_singleton, hempty, true_and]
  case isFalse hempty => simp only [List.not_mem_nil, hempty, false_and, Bool.false_eq_true]

/-! What lies below a unit. -/

theorem below_versionUnits (files : FileTree) (root category package : String) (id : UnitId) :
    below (versionUnits files root category package) id =
      if id = .package category package then versionUnits files root category package else [] := by
  have hparent {unit} (h : unit ∈ versionUnits files root category package) :
      unit.parent? = some (.package category package) := by
    obtain ⟨version, path, -, rfl⟩ := id_of_mem_versionUnits h
    rfl
  split
  case isTrue hid => exact below_eq_self fun unit hunit => hid ▸ hparent hunit
  case isFalse hid =>
    refine below_eq_nil fun unit hunit hp => hid ?_
    rw [hparent hunit] at hp
    exact (Option.some_inj.1 hp).symm

theorem below_packageUnits (files : FileTree) (root category package : String) (id : UnitId) :
    below (packageUnits files root category package) id =
      (if id = .package category package then versionUnits files root category package else []) ++
        if id = .category category then [packageUnit files root category package] else [] := by
  rw [packageUnits_eq, below_append, below_versionUnits]
  congr 1
  split
  case isTrue hid =>
    exact below_eq_self (by simp [hid, packageUnit, ScanUnit.parent?, UnitId.parent?])
  case isFalse hid =>
    exact below_eq_nil (by simpa [packageUnit, ScanUnit.parent?, UnitId.parent?] using Ne.symm hid)

theorem below_commits (id : UnitId) : below (s.commits.map s.commitUnit) id = [] :=
  below_eq_nil (by simp [commitUnit, ScanUnit.parent?, UnitId.parent?])

theorem below_units (files : FileTree) (s : Source) (id : UnitId) : below (s.units files) id =
    (s.categories files).flatMap fun category => below (s.categoryUnits files category) id := by
  have hrepository :
      below (if s.restriction.isEmpty then [repositoryUnit files s] else []) id = [] := by
    refine below_eq_nil fun unit hunit => ?_
    split at hunit
    · rw [List.mem_singleton] at hunit
      subst hunit
      simp [repositoryUnit, ScanUnit.parent?, UnitId.parent?]
    · cases hunit
  rw [units_eq, below_append, below_append, below_flatMap, below_commits, hrepository,
    List.append_nil, List.append_nil]

theorem below_categoryUnits_of_ne {id : UnitId} {other : String} (hid : id.category? = some other)
    (hne : category ≠ other) : below (s.categoryUnits files category) id = [] := by
  refine below_eq_nil fun unit hunit hp => ?_
  rcases UnitId.category?_parent (category?_of_mem hunit) hp with hcategory | rfl
  · rw [hid] at hcategory
    exact hne (Option.some_inj.1 hcategory).symm
  · cases hid

theorem below_categoryUnits (files : FileTree) (s : Source) (category : String) (id : UnitId) :
    below (s.categoryUnits files category) id =
      ((s.packages files category).flatMap fun package =>
        below (packageUnits files s.root category package) id) ++
      if id = .repository ∧ s.restriction.allowsCategory category then [categoryUnit files s category]
      else [] := by
  have hparent : (categoryUnit files s category).parent? = some .repository := rfl
  rw [categoryUnits_eq, below_append, below_flatMap]
  congr 1
  by_cases hid : id = .repository <;> cases s.restriction.allowsCategory category <;>
    simp [below, hparent, hid, eq_comm (b := id)]

theorem below_of_scope {id : UnitId} (hid : id.scope = .version ∨ id.scope = .commit) :
    below units id = [] := by
  refine below_eq_nil fun unit _ hp => ?_
  obtain ⟨id', path, children⟩ := unit
  cases id' <;> cases hp <;> simp [UnitId.scope] at hid

section

variable (hfiles : files.root.Proper)
include hfiles

theorem nodup_categories : (s.categories files).Nodup :=
  (nodup_visibleDirs hfiles s.root).filter _

theorem nodup_packages (category : String) : (s.packages files category).Nodup :=
  (nodup_visibleDirs hfiles _).filter _

theorem below_units_of_category {id : UnitId} (hcategory : category ∈ s.categories files)
    (hid : id.category? = some category) :
    below (s.units files) id = below (s.categoryUnits files category) id := by
  rw [below_units]
  exact flatMap_eq_of_mem (nodup_categories hfiles) hcategory fun other _ hne =>
    below_categoryUnits_of_ne hid hne

theorem below_package (hcategory : category ∈ s.categories files)
    (hpackage : package ∈ s.packages files category) :
    below (s.units files) (.package category package) =
      versionUnits files s.root category package := by
  rw [below_units_of_category hfiles hcategory rfl, below_categoryUnits,
    flatMap_eq_of_mem (nodup_packages hfiles category) hpackage]
  · simp [below_packageUnits]
  · intro other _ hne
    simp [below_packageUnits, hne.symm]

theorem below_category (hcategory : category ∈ s.categories files) :
    below (s.units files) (.category category) =
      (s.packages files category).map (packageUnit files s.root category) := by
  rw [below_units_of_category hfiles hcategory rfl, below_categoryUnits, List.map_eq_flatMap]
  simp [below_packageUnits]

end

theorem below_repository (files : FileTree) (hempty : s.restriction.isEmpty = true) :
    below (s.units files) .repository = (s.categories files).map (categoryUnit files s) := by
  have hallowed (category : String) : s.restriction.allowsCategory category = true := by
    simp [Restriction.allowsCategory, hempty]
  have hpackages (category : String) : ((s.packages files category).flatMap fun package =>
      below (packageUnits files s.root category package) .repository) = [] := by
    simp [below_packageUnits]
  rw [below_units, List.map_eq_flatMap]
  simp [below_categoryUnits, hpackages, hallowed]

theorem children_eq (hfiles : files.root.Proper) (hunit : unit ∈ s.units files) :
    unit.children = (below (s.units files) unit.id).length := by
  rcases mem_units.1 hunit with ⟨category, hcategory, hunit⟩ | ⟨hempty, rfl⟩ | ⟨hash, -, rfl⟩
  · rcases mem_categoryUnits.1 hunit with ⟨package, hpackage, hunit⟩ | ⟨-, rfl⟩
    · rw [packageUnits_eq, List.mem_append, List.mem_singleton] at hunit
      rcases hunit with hunit | rfl
      · obtain ⟨version, path, -, rfl⟩ := id_of_mem_versionUnits hunit
        rw [below_of_scope (.inl rfl)]
        rfl
      · exact congrArg List.length (below_package hfiles hcategory hpackage).symm
    · have hbelow := congrArg List.length (below_category hfiles hcategory)
      rw [List.length_map] at hbelow
      exact hbelow.symm
  · have hbelow := congrArg List.length (below_repository files hempty)
    rw [List.length_map] at hbelow
    exact hbelow.symm
  · rw [below_of_scope (.inr rfl)]
    rfl

/-! The order of the units. -/

theorem versionUnits_pairwise (hfiles : files.root.Proper) (root category package : String) :
    (versionUnits files root category package).Pairwise fun a b => a.Precedes b ∧ a.NotNewer b := by
  let dir := Path.join (Path.join root category) package
  have hparse {found : Version × String} (h : found ∈ packageVersions files dir package) :
      Version.parse? found.1.text = some found.1 := by
    obtain ⟨name, hfound, -⟩ := mem_packageVersions.1 h
    exact parse?_of_mem_foundVersions hfiles hfound
  have htexts := List.pairwise_map.1 (nodup_packageVersions hfiles dir package)
  rw [versionUnits, List.pairwise_map]
  refine (htexts.and (pairwise_packageVersions hfiles dir package)).imp_of_mem
    fun {a b} ha hb ⟨htext, horder⟩ => ⟨⟨?_, ?_, nofun⟩, ?_⟩
  · simpa using htext
  · simp [ScanUnit.parent?, UnitId.parent?]
  · exact ⟨category, package, _, _, a.1, b.1, rfl, rfl, hparse ha, hparse hb, horder⟩

theorem packageUnits_pairwise (hfiles : files.root.Proper) (root category package : String) :
    (packageUnits files root category package).Pairwise ScanUnit.Precedes := by
  rw [packageUnits_eq, List.pairwise_append]
  refine ⟨(versionUnits_pairwise hfiles root category package).imp And.left,
    List.pairwise_singleton _ _, fun a ha b hb => ?_⟩
  rw [List.mem_singleton] at hb
  subst hb
  obtain ⟨version, path, -, rfl⟩ := id_of_mem_versionUnits ha
  exact ⟨nofun, by simp [packageUnit, ScanUnit.parent?, UnitId.parent?], nofun⟩

theorem categoryUnits_pairwise (hfiles : files.root.Proper) (category : String) :
    (s.categoryUnits files category).Pairwise ScanUnit.Precedes := by
  rw [categoryUnits_eq, List.pairwise_append, List.pairwise_flatMap]
  refine ⟨⟨fun package _ => packageUnits_pairwise hfiles _ _ _, ?_⟩, ?_, fun a ha b hb => ?_⟩
  · refine (nodup_packages hfiles category).imp fun {package package'} hne a ha b hb => ?_
    rcases id_of_mem_packageUnits ha with ⟨text, hid⟩ | hid <;>
      rcases id_of_mem_packageUnits hb with ⟨text', hid'⟩ | hid' <;>
      exact ⟨by simp [hid, hid', hne],
        by simp [ScanUnit.parent?, hid, hid', UnitId.parent?, hne.symm], by simp [hid]⟩
  · split
    · exact List.pairwise_singleton _ _
    · exact .nil
  · obtain ⟨package, -, ha⟩ := List.mem_flatMap.1 ha
    split at hb
    · rw [List.mem_singleton] at hb
      subst hb
      rcases id_of_mem_packageUnits ha with ⟨text, hid⟩ | hid <;>
        exact ⟨by simp [hid, categoryUnit],
          by simp [hid, categoryUnit, ScanUnit.parent?, UnitId.parent?], by simp [hid]⟩
    · cases hb

theorem precedes_of_category?_ne {other : String} (ha : a.id.category? = some category)
    (hb : b.id.category? = some other) (hne : category ≠ other) : a.Precedes b where
  distinct hid := by
    rw [hid, hb] at ha
    exact hne (Option.some_inj.1 ha).symm
  notBelow hp := by
    rcases UnitId.category?_parent hb hp with hcategory | hid
    · rw [ha] at hcategory
      exact hne (Option.some_inj.1 hcategory)
    · rw [hid] at ha
      cases ha
  last hid := by
    rw [hid] at ha
    cases ha

theorem precedes_of_category? (ha : a.id.category? = some category)
    (hb : b.id.category? = none) (hparent : b.parent? = none) : a.Precedes b where
  distinct hid := by
    rw [hid, hb] at ha
    cases ha
  notBelow hp := by
    rw [hparent] at hp
    cases hp
  last hid := by
    rw [hid] at ha
    cases ha

theorem units_pairwise (hfiles : files.root.Proper) (hcommits : s.commits.Nodup) :
    (s.units files).Pairwise ScanUnit.Precedes := by
  rw [units_eq, List.pairwise_append, List.pairwise_append, List.pairwise_flatMap,
    List.pairwise_map]
  have hfront {a} (ha : a ∈ (s.categories files).flatMap (s.categoryUnits files)) :
      ∃ category, a.id.category? = some category := by
    obtain ⟨category, -, ha⟩ := List.mem_flatMap.1 ha
    exact ⟨category, category?_of_mem ha⟩
  have hmiddle {a} (ha : a ∈ if s.restriction.isEmpty then [repositoryUnit files s] else []) :
      a = repositoryUnit files s := by
    split at ha
    · exact List.mem_singleton.1 ha
    · cases ha
  refine ⟨⟨⟨fun category _ => categoryUnits_pairwise hfiles category, ?_⟩, ?_, fun a ha b hb => ?_⟩,
    hcommits.imp fun {hash hash'} hne => ?_, fun a ha b hb => ?_⟩
  · exact (nodup_categories hfiles).imp fun {category other} hne a ha b hb =>
      precedes_of_category?_ne (category?_of_mem ha) (category?_of_mem hb) hne
  · split
    · exact List.pairwise_singleton _ _
    · exact .nil
  · obtain ⟨category, ha⟩ := hfront ha
    rw [hmiddle hb]
    exact precedes_of_category? ha rfl rfl
  · exact ⟨by simpa [commitUnit] using hne, nofun, nofun⟩
  · obtain ⟨hash, -, rfl⟩ := List.mem_map.1 hb
    rcases List.mem_append.1 ha with ha | ha
    · obtain ⟨category, ha⟩ := hfront ha
      exact precedes_of_category? ha rfl rfl
    · rw [hmiddle ha]
      exact ⟨nofun, nofun, fun _ => rfl⟩

theorem packageUnits_together (hcategory : category ∈ s.categories files)
    (hpackage : package ∈ s.packages files category) :
    versionUnits files s.root category package ++ [packageUnit files s.root category package] <:+:
      s.units files := by
  have hinPackages := infix_flatMap hpackage (packageUnits files s.root category)
  have hinCategory : (s.packages files category).flatMap (packageUnits files s.root category) <:+:
      s.categoryUnits files category := (List.prefix_append _ _).isInfix
  have hinCategories := infix_flatMap hcategory (s.categoryUnits files)
  rw [← packageUnits_eq, units_eq, List.append_assoc]
  exact ((hinPackages.trans hinCategory).trans hinCategories).trans (List.prefix_append _ _).isInfix

theorem exists_packageUnits (hunit : unit ∈ s.units files)
    (hscope : unit.scope = .version ∨ unit.scope = .package) :
    ∃ category ∈ s.categories files, ∃ package ∈ s.packages files category,
      unit ∈ versionUnits files s.root category package ∨
        unit = packageUnit files s.root category package := by
  rcases mem_units.1 hunit with ⟨category, hcategory, hunit⟩ | ⟨-, rfl⟩ | ⟨hash, -, rfl⟩
  · rcases mem_categoryUnits.1 hunit with ⟨package, hpackage, hunit⟩ | ⟨-, rfl⟩
    · rw [packageUnits_eq, List.mem_append, List.mem_singleton] at hunit
      exact ⟨category, hcategory, package, hpackage, hunit⟩
    · rcases hscope with hscope | hscope <;> cases hscope
  · rcases hscope with hscope | hscope <;> cases hscope
  · rcases hscope with hscope | hscope <;> cases hscope

theorem scope_of_mem_versionUnits (h : unit ∈ versionUnits files root category package) :
    unit.scope = .version := by
  obtain ⟨version, path, -, rfl⟩ := id_of_mem_versionUnits h
  rfl

theorem enumerated_units (hfiles : files.root.Proper) (hcommits : s.commits.Nodup) :
    Enumerated s.restriction (s.units files) where
  nodup := List.pairwise_map.2 ((units_pairwise hfiles hcommits).imp ScanUnit.Precedes.distinct)
  above := (units_pairwise hfiles hcommits).imp ScanUnit.Precedes.notBelow
  owned unit hunit hscope := by
    obtain ⟨category, hcategory, package, hpackage, hunit | rfl⟩ :=
      exists_packageUnits hunit (.inl hscope)
    · obtain ⟨version, path, -, rfl⟩ := id_of_mem_versionUnits hunit
      exact ⟨packageUnit files s.root category package,
        (packageUnits_together hcategory hpackage).mem (by simp), rfl⟩
    · cases hscope
  versions unit hunit hscope := by
    obtain ⟨category, hcategory, package, hpackage, hunit | rfl⟩ :=
      exists_packageUnits hunit (.inr hscope)
    · rw [scope_of_mem_versionUnits hunit] at hscope
      cases hscope
    · have hbelow : below (s.units files) (packageUnit files s.root category package).id =
          versionUnits files s.root category package := below_package hfiles hcategory hpackage
      rw [hbelow]
      exact ⟨packageUnits_together hcategory hpackage,
        (versionUnits_pairwise hfiles _ _ _).imp And.right⟩
  children unit hunit := children_eq hfiles hunit
  repository := by
    constructor
    · rintro ⟨unit, hunit, hid⟩
      rcases mem_units.1 hunit with ⟨category, -, hunit⟩ | ⟨hempty, rfl⟩ | ⟨hash, -, rfl⟩
      · have hcategory := category?_of_mem hunit
        rw [hid] at hcategory
        cases hcategory
      · exact hempty
      · cases hid
    · intro hempty
      exact ⟨repositoryUnit files s, mem_units.2 (.inr (.inl ⟨hempty, rfl⟩)), rfl⟩
  last := (units_pairwise hfiles hcommits).imp ScanUnit.Precedes.last

end Repository.Source

namespace Scan

theorem length_since (hn : n ≤ units.length)
    (hid : ∀ m < n, ∀ unit, units[m]? = some unit → unit.id ≠ id) :
    (since units id n).length = (units.take n).countP (·.liesBelow id) := by
  induction n with
  | zero => rfl
  | succ n ih =>
    obtain ⟨unit, hunit⟩ : ∃ unit, units[n]? = some unit := ⟨_, List.getElem?_eq_getElem hn⟩
    have hne : unit.id ≠ id := hid n (Nat.lt_succ_self n) unit hunit
    have ih := ih (by omega) fun m hm => hid m (by omega)
    rw [since, List.take_add_one, hunit, List.countP_append, ← ih]
    cases hbelow : unit.liesBelow id <;> simp [hbelow, hne]

theorem length_below (hid : id.scope = .package) :
    (below units id).length = units.countP (·.liesBelow id) := by
  rw [below, List.countP_eq_length_filter]
  congr 2
  funext unit
  rw [Bool.eq_iff_iff, ScanUnit.liesBelow_iff, beq_iff_eq]
  refine ⟨fun hp => ⟨?_, hp⟩, And.right⟩
  obtain ⟨id', path, children⟩ := unit
  cases id' <;> cases hp <;> simp [UnitId.scope, ScanUnit.scope] at hid ⊢

theorem children_workOf {r : Restriction} (h : Enumerated r units) (hn : units[n]? = some unit)
    (hscope : unit.scope = .package) : (workOf units n unit).children = unit.children := by
  obtain ⟨hlt, hunit⟩ := List.getElem?_eq_some_iff.1 hn
  have hsplit : units = units.take n ++ unit :: units.drop (n + 1) := by
    rw [← hunit, ← List.drop_eq_getElem_cons, List.take_append_drop]
  have hpairwise := List.pairwise_map.1 h.nodup
  have habove := h.above
  rw [hsplit, List.pairwise_append, List.pairwise_cons] at hpairwise habove
  have hbefore : ∀ m < n, ∀ other, units[m]? = some other → other.id ≠ unit.id := by
    intro m hm other hother
    refine hpairwise.2.2 other ?_ unit List.mem_cons_self
    rw [List.mem_take_iff_getElem]
    obtain ⟨hm', hother⟩ := List.getElem?_eq_some_iff.1 hother
    exact ⟨m, by omega, hother⟩
  have hafter : (unit :: units.drop (n + 1)).countP (·.liesBelow unit.id) = 0 := by
    rw [List.countP_eq_zero]
    intro other hother hbelow
    rcases List.mem_cons.1 hother with rfl | hother
    · exact ScanUnit.liesBelow_ne hbelow rfl
    · exact habove.2.1.1 other hother (ScanUnit.liesBelow_iff.1 hbelow).2
  have hcount : units.countP (·.liesBelow unit.id) =
      (units.take n).countP (·.liesBelow unit.id) := by
    conv => lhs; rw [hsplit, List.countP_append, hafter, Nat.add_zero]
  rw [workOf, if_pos hscope, length_since (Nat.le_of_lt hlt) hbefore, ← hcount, ← length_below hscope,
    h.children unit (List.mem_of_getElem? hn)]

end Scan

/--
The units of a repository are in the order of a scan, whatever the targets are. However far a scan
has got with them, each package was given out with as many versions as it says it has.
-/
theorem Repository.Source.units_enumerated (files : FileTree) (s : Source)
    (hfiles : files.root.Proper) (hcommits : s.commits.Nodup) :
    Enumerated s.restriction (s.units files) ∧
      ∀ (σ : Type) (rules : Scan.Rules σ) (options : Scan.Options) (store : σ) (h : Scan.History)
        (t : Scan.State σ), Scan.Trace (.start rules options store (s.units files)) h t →
        ∀ work ∈ h.handed ++ t.queue ++ t.dispatcher.work?.toList, work.unit ∈ s.units files ∧
          (work.unit.scope = .package → work.children = work.unit.children) := by
  have henumerated := enumerated_units hfiles hcommits
  refine ⟨henumerated, fun σ rules options store h t ht work hwork => ?_⟩
  rw [ht.handed_append] at hwork
  obtain ⟨hunit, heq⟩ := Scan.mem_works (List.mem_of_mem_take hwork)
  refine ⟨List.mem_of_getElem? hunit, fun hscope => ?_⟩
  rw [heq]
  exact Scan.children_workOf henumerated hunit hscope

def unsortedEntries : List (String × Entry) :=
  [("p-1.10.ebuild", .file .empty 0), ("p-1.9.ebuild", .file .empty 0), ("files", .dir [])]

def lonePackage : FileTree where
  root := .dir [("a", .dir [("p", .dir unsortedEntries)])]
  cwd := []

theorem unsortedEntries_proper : (Entry.dir unsortedEntries).Proper := by
  refine .dir (by decide) ?_ ?_ <;> simp only [unsortedEntries, List.forall_mem_cons]
  · exact ⟨⟨by decide, by decide, by decide, by decide⟩, ⟨by decide, by decide, by decide, by decide⟩,
      ⟨by decide, by decide, by decide, by decide⟩, nofun⟩
  · exact ⟨.file _ _, .file _ _, .dir .nil nofun nofun, nofun⟩

theorem lonePackage_proper : lonePackage.root.Proper :=
  .single ⟨by decide, by decide, by decide, by decide⟩
    (.single ⟨by decide, by decide, by decide, by decide⟩ unsortedEntries_proper)

theorem Repository.Source.units_enumerated_lonePackage :
    let s : Source := ⟨"/", .none, ["c"]⟩
    lonePackage.root.Proper ∧ s.commits.Nodup ∧ Enumerated .none (s.units lonePackage) ∧
      ∃ unit ∈ s.units lonePackage, unit.id = .package "a" "p" ∧ unit.children = 2 ∧
        (below (s.units lonePackage) unit.id).length = 2 := by
  intro s
  have hcommits : s.commits.Nodup := by decide
  obtain ⟨henumerated, -⟩ := units_enumerated lonePackage s lonePackage_proper hcommits
  have htop : entriesAt lonePackage "/" = [("a", .dir [("p", .dir unsortedEntries)])] := rfl
  have hbelow : entriesAt lonePackage (Path.join "/" "a") = [("p", .dir unsortedEntries)] := rfl
  have hcategory : "a" ∈ s.categories lonePackage :=
    List.mem_filter.2 ⟨mem_visibleDirs.2 ⟨_, htop ▸ List.mem_cons_self, by decide⟩, by decide⟩
  have hpackage : "p" ∈ s.packages lonePackage "a" :=
    List.mem_filter.2 ⟨mem_visibleDirs.2 ⟨_, hbelow ▸ List.mem_cons_self, by decide⟩, rfl⟩
  have hunit := (packageUnits_together hcategory hpackage).mem
    (List.mem_append_right _ (List.mem_singleton_self _))
  have hversions :
      (foundVersions lonePackage (Path.join (Path.join "/" "a") "p") "p").length = 2 := by
    decide +kernel
  have hchildren : (packageUnit lonePackage s.root "a" "p").children = 2 := by
    change (versionUnits lonePackage "/" "a" "p").length = 2
    rw [versionUnits, List.length_map, packageVersions_eq, List.length_map, List.length_mergeSort,
      hversions]
  exact ⟨lonePackage_proper, hcommits, henumerated, _, hunit, rfl, hchildren,
    (henumerated.children _ hunit).symm.trans hchildren⟩

end EbuildAudit
