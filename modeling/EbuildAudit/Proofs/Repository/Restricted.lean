import EbuildAudit.Proofs.Glob.Pattern
import EbuildAudit.Proofs.Repository.Enumeration

namespace EbuildAudit

/-- Whether a unit is left in a scan with targets; the repository as a whole is not. -/
def Restriction.keeps (r : Restriction) : UnitId → Bool
  | .version c p _ => r.allowsPackage c p
  | .package c p => r.allowsPackage c p
  | .category c => r.allowsCategory c
  | .repository => false
  | .commit _ => true

def UnitId.isTargeted (targets : String → Bool) : UnitId → Bool
  | .version c p _ => targets c || targets (c ++ "/" ++ p)
  | .package c p => targets c || targets (c ++ "/" ++ p)
  | .category c => targets c
  | .repository => false
  | .commit _ => true

namespace Glob

theorem matchTokens_chars {cs ds : List Char} :
    matchTokens false (cs.map .char) ds = .yes ↔ cs = ds := by
  induction cs generalizing ds with
  | nil => cases ds <;> simp [matchTokens]
  | cons c cs ih =>
    cases ds with
    | nil => simp [matchTokens]
    | cons d ds =>
      by_cases hd : d = c
      · simp [matchTokens, Token.accepts, hd, ih]
      · simp [matchTokens, Token.accepts, hd, Ne.symm hd]

theorem Pattern.matches_ofText {s t : String} : (ofText s).matches t = true ↔ s = t := by
  rw [Pattern.matches, ofText, beq_iff_eq, matchTokens_chars, String.toList_inj]

end Glob

namespace Restriction

variable {r : Restriction}

theorem allowsPackage_of_allowsCategory {category : String} (h : r.allowsCategory category = true)
    (package : String) : r.allowsPackage category package = true := by
  simp [allowsPackage, h]

theorem keeps_eq_isTargeted (h : r.isEmpty = false) (id : UnitId) :
    r.keeps id = id.isTargeted r.targets := by
  cases id <;> simp [keeps, UnitId.isTargeted, allowsPackage, allowsCategory, h]

/-- Any set of keys is what some patterns stand for, as far as finitely many keys can tell. -/
theorem exists_targets (targets : String → Bool) (keys : List String) :
    ∃ r : Restriction, r.isEmpty = false ∧ ∀ key ∈ keys, r.targets key = targets key := by
  -- A class without characters describes nothing, so it adds no key.
  refine ⟨⟨⟨[.anyWithin []]⟩ :: (keys.filter targets).map Glob.Pattern.ofText⟩, rfl, ?_⟩
  intro key hkey
  have hnone : (Glob.Pattern.mk [.anyWithin []]).matches key = false := by
    rw [Glob.Pattern.matches]
    cases key.toList <;> rfl
  rw [Bool.eq_iff_iff, Restriction.targets, List.any_cons, hnone, Bool.false_or, List.any_map,
    List.any_eq_true]
  constructor
  · rintro ⟨other, hother, hmatches⟩
    rw [← Glob.Pattern.matches_ofText.1 hmatches]
    exact (List.mem_filter.1 hother).2
  · intro htarget
    exact ⟨key, List.mem_filter.2 ⟨hkey, htarget⟩, Glob.Pattern.matches_ofText.2 rfl⟩

end Restriction

def UnitId.keys : UnitId → List String
  | .version c p _ => [c, c ++ "/" ++ p]
  | .package c p => [c, c ++ "/" ++ p]
  | .category c => [c]
  | .repository | .commit _ => []

theorem UnitId.isTargeted_congr {targets targets' : String → Bool} (id : UnitId)
    (h : ∀ key ∈ id.keys, targets key = targets' key) :
    id.isTargeted targets = id.isTargeted targets' := by
  cases id <;> simp_all [isTargeted, keys]

namespace Repository.Source

variable {files : FileTree} {r : Restriction} {root category package : String}

theorem filter_packageUnits (files : FileTree) (r : Restriction) (root category package : String) :
    (packageUnits files root category package).filter (r.keeps ·.id) =
      if r.allowsPackage category package then packageUnits files root category package else [] := by
  have hkeeps {unit} (h : unit ∈ packageUnits files root category package) :
      r.keeps unit.id = r.allowsPackage category package := by
    rcases id_of_mem_packageUnits h with ⟨text, hid⟩ | hid
    all_goals
      rw [hid]
      rfl
  split
  case isTrue hallowed =>
    exact List.filter_eq_self.2 fun unit hunit => (hkeeps hunit).trans hallowed
  case isFalse hnot =>
    exact List.filter_eq_nil_iff.2 fun unit hunit hkept => hnot ((hkeeps hunit).symm.trans hkept)

theorem packages_none (files : FileTree) (root : String) (commits : List String)
    (category : String) : packages files ⟨root, .none, commits⟩ category =
      visibleDirs files (Path.join root category) :=
  List.filter_eq_self.2 fun _ _ => rfl

theorem flatMap_packages_restricted (files : FileTree) (root : String) (r : Restriction)
    (commits : List String) (category : String) :
    (packages files ⟨root, r, commits⟩ category).flatMap (packageUnits files root category) =
      ((packages files ⟨root, .none, commits⟩ category).flatMap
        (packageUnits files root category)).filter (r.keeps ·.id) := by
  rw [packages_none, List.filter_flatMap]
  calc
    (packages files ⟨root, r, commits⟩ category).flatMap (packageUnits files root category) =
        (packages files ⟨root, r, commits⟩ category).flatMap fun package =>
          (packageUnits files root category package).filter (r.keeps ·.id) := by
      refine List.flatMap_congr fun package hpackage => ?_
      rw [filter_packageUnits, if_pos (List.mem_filter.1 hpackage).2]
    _ = (visibleDirs files (Path.join root category)).flatMap fun package =>
          (packageUnits files root category package).filter (r.keeps ·.id) := by
      refine flatMap_filter_of fun package _ hnot => ?_
      rw [filter_packageUnits, if_neg (by simp [hnot])]

theorem categoryUnit_restricted (files : FileTree) (root : String) {r : Restriction}
    (commits : List String) {category : String} (h : r.allowsCategory category = true) :
    categoryUnit files ⟨root, r, commits⟩ category =
      categoryUnit files ⟨root, .none, commits⟩ category := by
  have hpackages : packages files ⟨root, r, commits⟩ category =
      visibleDirs files (Path.join root category) :=
    List.filter_eq_self.2 fun package _ => Restriction.allowsPackage_of_allowsCategory h package
  rw [categoryUnit, categoryUnit, hpackages, packages_none]

theorem categoryUnits_restricted (files : FileTree) (root : String) (r : Restriction)
    (commits : List String) (category : String) :
    categoryUnits files ⟨root, r, commits⟩ category =
      (categoryUnits files ⟨root, .none, commits⟩ category).filter (r.keeps ·.id) := by
  have hall : (Restriction.none).allowsCategory category = true := rfl
  have hkeeps : r.keeps (categoryUnit files ⟨root, .none, commits⟩ category).id =
      r.allowsCategory category := rfl
  rw [categoryUnits_eq, categoryUnits_eq, if_pos hall, List.filter_append]
  congr 1
  · exact flatMap_packages_restricted files root r commits category
  · rw [List.filter_singleton, hkeeps, Bool.cond_eq_ite]
    split
    case isTrue hallowed => rw [categoryUnit_restricted files root commits hallowed]
    case isFalse => rfl

theorem filter_commits (r : Restriction) (s : Source) :
    (s.commits.map s.commitUnit).filter (r.keeps ·.id) = s.commits.map s.commitUnit := by
  refine List.filter_eq_self.2 fun unit hunit => ?_
  obtain ⟨hash, -, rfl⟩ := List.mem_map.1 hunit
  rfl

/--
A scan with targets is what is left of a scan of everything, whatever the targets are: each set of
keys is the set of some targets.
-/
theorem units_restricted (files : FileTree) (root : String) (commits : List String) :
    (∀ r : Restriction, r.isEmpty = false → units files ⟨root, r, commits⟩ =
      (units files ⟨root, .none, commits⟩).filter (r.keeps ·.id)) ∧
    ∀ targets : String → Bool, ∃ r : Restriction, r.isEmpty = false ∧
      units files ⟨root, r, commits⟩ =
        (units files ⟨root, .none, commits⟩).filter (·.id.isTargeted targets) := by
  have hfilter (r : Restriction) (h : r.isEmpty = false) : units files ⟨root, r, commits⟩ =
      (units files ⟨root, .none, commits⟩).filter (r.keeps ·.id) := by
    have hnone : (Restriction.none).isEmpty = true := rfl
    rw [units_eq, units_eq, List.filter_append, List.filter_append, List.filter_flatMap,
      filter_commits, if_neg (by simp [h]), if_pos hnone]
    congr 2
    exact List.flatMap_congr fun category _ =>
      categoryUnits_restricted files root r commits category
  refine ⟨hfilter, fun targets => ?_⟩
  obtain ⟨r, hr, hkeys⟩ := Restriction.exists_targets targets
    ((units files ⟨root, .none, commits⟩).flatMap (·.id.keys))
  refine ⟨r, hr, (hfilter r hr).trans (List.filter_congr fun unit hunit => ?_)⟩
  rw [Restriction.keeps_eq_isTargeted hr]
  exact unit.id.isTargeted_congr fun key hkey => hkeys key (List.mem_flatMap_of_mem hunit hkey)

end Repository.Source

end EbuildAudit
