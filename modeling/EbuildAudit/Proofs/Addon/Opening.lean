import EbuildAudit.Proofs.Addon.Caching
import EbuildAudit.Proofs.Addon.Standing
import EbuildAudit.Proofs.Registry.Validation

/-!
Stores that are opened one after the other over one cache. What an addon comes to is given by a law,
from the state of the repository, the version of the written form and the values of the addons that
it depends on. A cache is honest if all that counts in it is a value that the law gives.
-/

namespace EbuildAudit

/-- What a store is opened with, and the states of the files in which it is asked. -/
structure Opening where
  addons : List Addon
  root : String
  settings : AddonSettings
  load : Loader
  identity : String
  states : FileTree → Prop

/-- What the addons come to in some state of the repository. -/
abbrev Law := AddonId → String → Option Nat → List AddonValue → Outcome

namespace Opening

def addon? (o : Opening) (id : AddonId) : Option Addon :=
  (Addon.byId o.addons).lookup id

def store (o : Opening) (files : FileTree) (cache : Option Cache) : Store :=
  .new o.addons files o.root o.settings o.load cache

structure Keeps (o : Opening) (addon : Addon) (key : CacheKey) : Prop where
  lookup : o.addon? key.addon = some addon
  version : addon.persistVersion = some key.version
  identity : key.identity = o.identity

inductive Has (law : Law) (o : Opening) : AddonId → AddonValue → Prop
  | intro {id : AddonId} {addon : Addon} {value : AddonValue} (values : AddonId → AddonValue) :
    o.addon? id = some addon → (∀ d ∈ addon.dependsOn, Has law o d (values d)) →
      law id o.identity addon.persistVersion (addon.dependsOn.map values) = .ready value →
      Has law o id value

end Opening

/--
Addons keep to the law wherever they are opened. They have names that can stand in the name of a
file, and read what was written of a value in the same version. Writing to the cache leaves the
repository as it is.
-/
structure Lawful (law : Law) (c : Cache) (openings : Set Opening) : Prop where
  name {o : Opening} {id : AddonId} {addon : Addon} : o ∈ openings → o.addon? id = some addon →
    '/' ∉ id.toList
  asks {o : Opening} {id : AddonId} {addon : Addon} : o ∈ openings → o.addon? id = some addon →
    ∀ s, (addon.compute s).AsksOnly addon.dependsOn
  outcome {o : Opening} {id : AddonId} {addon : Addon} {files : FileTree} : o ∈ openings →
    o.addon? id = some addon → o.states files → ∀ calls values,
      .ofComputed ((addon.compute ⟨files, o.root, o.settings, o.load, calls⟩).answer (m := Id)
        fun d => .ready (values d)) =
      law id o.identity addon.persistVersion (addon.dependsOn.map values)
  version {o : Opening} {addon : Addon} {key : CacheKey} : o ∈ openings → o.Keeps addon key →
    key.version < Envelope.versionBound
  codec {o o' : Opening} {addon addon' : Addon} {key : CacheKey} {value : AddonValue} {j : Json} :
    o ∈ openings → o' ∈ openings → o.Keeps addon key → o'.Keeps addon' key →
      o.Has law key.addon value → addon.encode value = some j →
      j.Proper ∧ addon'.decode j = some value
  identity {o : Opening} {files : FileTree} : o ∈ openings → o.states files →
    Repository.identity files o.root = o.identity
  store {o : Opening} {addon : Addon} {key : CacheKey} {files : FileTree} : o ∈ openings →
    o.Keeps addon key → o.states files → ∀ j, o.states (c.store files key j).1

/--
An addon that is kept under one key depends on the same values wherever it is opened, as far as all
of them are ready.
-/
def Consistent (law : Law) (openings : Set Opening) : Prop :=
  ∀ o ∈ openings, ∀ o' ∈ openings, ∀ addon addon' key, o.Keeps addon key → o'.Keeps addon' key →
    ∀ values values', (∀ d ∈ addon.dependsOn, o.Has law d (values d)) →
      (∀ d ∈ addon'.dependsOn, o'.Has law d (values' d)) →
      addon.dependsOn.map values = addon'.dependsOn.map values'

def Written (law : Law) (openings : Set Opening) (key : CacheKey) (j : Json) : Prop :=
  ∃ o ∈ openings, ∃ addon value, o.Keeps addon key ∧ o.Has law key.addon value ∧
    addon.encode value = some j

/-- Whatever counts for a key was written for this key by one of the stores opened so far. -/
def Honest (law : Law) (c : Cache) (openings opened : Set Opening) (files : FileTree) : Prop :=
  ∀ o ∈ openings, ∀ addon key, o.Keeps addon key → ∀ j, c.load? files key = some j →
    Written law opened key j

variable {law : Law} {c : Cache} {openings opened opened' : Set Opening} {o : Opening}
  {addon : Addon} {key : CacheKey} {id : AddonId} {value value' : AddonValue}
  {files files' : FileTree} {j : Json}

theorem Opening.id_of_addon? (h : o.addon? id = some addon) : addon.id = id := by
  rw [addon?, Addon.lookup_byId] at h
  exact Addon.id_of_last? h

theorem Opening.Has.unique (h : o.Has law id value) (h' : o.Has law id value') :
    value = value' := by
  induction h generalizing value' with
  | @intro id addon value values haddon _ hvalue ih =>
    obtain ⟨values', haddon', hvalues', hvalue'⟩ := h'
    cases haddon.symm.trans haddon'
    have hsame : addon.dependsOn.map values = addon.dependsOn.map values' :=
      List.map_congr_left fun d hd => ih d hd (hvalues' d hd)
    rw [hsame, hvalue'] at hvalue
    cases hvalue
    rfl

theorem consistent_singleton (law : Law) (o : Opening) : Consistent law {o} := by
  rintro _ rfl _ rfl addon addon' key hkeeps hkeeps' values values' hvalues hvalues'
  cases hkeeps.lookup.symm.trans hkeeps'.lookup
  exact List.map_congr_left fun d hd => (hvalues d hd).unique (hvalues' d hd)

namespace Honest

theorem of_none (h : ∀ o ∈ openings, ∀ addon key, o.Keeps addon key → c.load? files key = none) :
    Honest law c openings opened files := by
  intro o ho addon key hkeeps j hload
  rw [h o ho addon key hkeeps] at hload
  cases hload

theorem mono (h : Honest law c openings opened files)
    (hload : ∀ o ∈ openings, ∀ addon key, o.Keeps addon key → ∀ j,
      c.load? files' key = some j → c.load? files key = some j) :
    Honest law c openings opened files' :=
  fun o ho addon key hkeeps j hj => h o ho addon key hkeeps j (hload o ho addon key hkeeps j hj)

theorem opened_mono (h : Honest law c openings opened files) (hopened : opened ⊆ opened') :
    Honest law c openings opened' files := by
  intro o ho addon key hkeeps j hload
  obtain ⟨o', ho', hwritten⟩ := h o ho addon key hkeeps j hload
  exact ⟨o', hopened ho', hwritten⟩

theorem clear (h : Honest law c openings opened files) :
    Honest law c openings opened (c.clear files).1 :=
  h.mono fun _ _ _ _ _ _ => Cache.load?_clear

theorem store (hlawful : Lawful law c openings) (hopened : opened ⊆ openings)
    (h : Honest law c openings opened files) (ho : o ∈ opened) (hkeeps : o.Keeps addon key)
    (hhas : o.Has law key.addon value) (hj : addon.encode value = some j) :
    Honest law c openings opened (c.store files key j).1 := by
  intro o' ho' addon' key' hkeeps' j' hload
  have hproper := (hlawful.codec (hopened ho) (hopened ho) hkeeps hkeeps hhas hj).1
  rcases Cache.load?_store (hlawful.name (hopened ho) hkeeps.lookup)
    (hlawful.name ho' hkeeps'.lookup) (hlawful.version (hopened ho) hkeeps) hproper hload with
    ⟨rfl, rfl⟩ | hload
  · exact ⟨o, ho, addon, value, hkeeps, hhas, hj⟩
  · exact h o' ho' addon' key' hkeeps' j' hload

end Honest

end EbuildAudit
