import EbuildAudit.Addon.Store
import EbuildAudit.Proofs.Basic

namespace EbuildAudit

def Query.AsksOnly (addons : List AddonId) : Query α → Prop
  | .done _ => True
  | .ask addon next => addon ∈ addons ∧ ∀ outcome, (next outcome).AsksOnly addons

theorem Query.AsksOnly.bind {addons : List AddonId} {q : Query α} {f : α → Query β}
    (hq : q.AsksOnly addons) (hf : ∀ a, (f a).AsksOnly addons) : (q.bind f).AsksOnly addons := by
  induction q with
  | done a => exact hf a
  | ask addon next ih => exact ⟨hq.1, fun outcome => ih outcome (hq.2 outcome)⟩

theorem bind_apply {σ α β : Type} (x : StateM σ α) (f : α → StateM σ β) (s : σ) :
    (x >>= f) s = f (x s).1 (x s).2 :=
  rfl

theorem get_apply {σ : Type} (s : σ) : (get : StateM σ σ) s = (s, s) :=
  rfl

theorem modify_apply {σ : Type} (f : σ → σ) (s : σ) : (modify f : StateM σ PUnit) s = (⟨⟩, f s) :=
  rfl

namespace Store

def surroundings (s : Store) (calls : Nat) : Surroundings where
  files := s.files
  root := s.root
  settings := s.settings
  load := s.load
  calls

variable {s t u : Store} {ask : AddonId → StateM Store Outcome} {id d k : AddonId} {addon : Addon}
  {ids : List AddonId} {o blocked : Outcome} {value : AddonValue}
  {place : Option (Cache × CacheKey)} {c : Cache} {fuel : Nat}

theorem lookup_setSlot_self (s : Store) (id : AddonId) (slot : Slot) :
    (s.setSlot id slot).slots.lookup id = some slot := by
  simp [setSlot]

theorem lookup_setSlot_of_ne (s : Store) (slot : Slot) (h : k ≠ id) :
    (s.setSlot id slot).slots.lookup k = s.slots.lookup k := by
  rw [setSlot, List.lookup_cons, beq_false_of_ne h, lookup_filter_of_ne h]

theorem getWithin_of_full (h : s.slots.lookup id = some (.full o)) :
    getWithin (fuel + 1) id s = (o, s) := by
  rw [getWithin, bind_apply, get_apply]
  simp only [h]
  rfl

theorem getWithin_of_filling (h : s.slots.lookup id = some .filling) :
    getWithin (fuel + 1) id s = (waiting id, s) := by
  rw [getWithin, bind_apply, get_apply]
  simp only [h]
  rfl

theorem getWithin_of_none (h : s.slots.lookup id = none) :
    getWithin (fuel + 1) id s =
      let filled := fill (getWithin fuel) id (s.setSlot id .filling)
      (filled.1, filled.2.setSlot id (.full filled.1)) := by
  rw [getWithin, bind_apply, get_apply]
  simp only [h]
  rfl

theorem blocked?_eq_none (h : blocked? d o = none) : ∃ value, o = .ready value := by
  cases o with
  | ready value => exact ⟨value, rfl⟩
  | failed reason => cases h
  | disabled reason => cases h

theorem blocked?_ne_ready (h : blocked? d o = some blocked) : blocked ≠ .ready value := by
  cases o with
  | ready => cases h
  | failed => cases h; exact Outcome.noConfusion
  | disabled => cases h; exact Outcome.noConfusion

theorem firstBlocked_cons (ask : AddonId → StateM Store Outcome) (d : AddonId)
    (ids : List AddonId) (t : Store) : firstBlocked ask (d :: ids) t =
      match blocked? d (ask d t).1 with
      | some outcome => (some outcome, (ask d t).2)
      | none => firstBlocked ask ids (ask d t).2 := by
  rw [firstBlocked, bind_apply]
  cases blocked? d (ask d t).1 with
  | some outcome => rfl
  | none => rfl

theorem firstBlocked_ne_ready (h : (firstBlocked ask ids s).1 = some blocked) :
    blocked ≠ .ready value := by
  induction ids generalizing s with
  | nil => cases h
  | cons d ids ih =>
    rw [firstBlocked_cons] at h
    cases hd : blocked? d (ask d s).1 with
    | some outcome =>
      rw [hd] at h
      cases h
      exact blocked?_ne_ready hd
    | none =>
      rw [hd] at h
      exact ih h

theorem fill_of_unknown (ask : AddonId → StateM Store Outcome) (hid : t.addons.lookup id = none) :
    fill ask id t = (.failed ("unknown addon " ++ id), t) := by
  rw [fill, bind_apply, get_apply]
  simp only [hid]
  rfl

theorem fill_of_blocked (hid : t.addons.lookup id = some addon)
    (hblocked : (firstBlocked ask addon.dependsOn t).1 = some o) :
    fill ask id t = (o, (firstBlocked ask addon.dependsOn t).2) := by
  rw [fill, bind_apply, get_apply]
  simp only [hid]
  rw [bind_apply, hblocked]
  rfl

def computing (t : Store) (addon : Addon) : Store :=
  { t with calls := Ascending.modify 0 (· + 1) addon.id t.calls }

def kept (addon : Addon) (place : Option (Cache × CacheKey)) (s : Store) :
    Except AddonStop AddonValue → Store
  | .ok value => (keep addon place value s).2
  | .error _ => s

theorem kept_none (addon : Addon) (t : Store) (computed : Except AddonStop AddonValue) :
    kept addon none t computed = t := by
  cases computed <;> rfl

theorem compute_eq (ask : AddonId → StateM Store Outcome) (addon : Addon)
    (place : Option (Cache × CacheKey)) (t : Store) : compute ask addon place t =
      let t := t.computing addon
      let found := (addon.compute (t.surroundings (t.callsOf addon.id))).answer ask t
      (.ofComputed found.1, kept addon place found.2 found.1) := by
  rw [compute, bind_apply, modify_apply, bind_apply, get_apply, bind_apply]
  simp only [computing, surroundings]
  generalize Query.answer ask (addon.compute _) _ = found
  obtain ⟨computed, t⟩ := found
  cases computed with
  | ok value => rfl
  | error stop => rfl

theorem compute_of_none (ask : AddonId → StateM Store Outcome) (addon : Addon) (t : Store) :
    compute ask addon none t =
      let t := t.computing addon
      let found := (addon.compute (t.surroundings (t.callsOf addon.id))).answer ask t
      (.ofComputed found.1, found.2) := by
  rw [compute_eq]
  simp only [kept_none]

def settle (ask : AddonId → StateM Store Outcome) (addon : Addon) : StateM Store Outcome := do
  let place ← cacheKey? addon
  match cached? addon place (← MonadState.get) with
  | some value => return .ready value
  | none => compute ask addon place

theorem fill_of_settled (hid : t.addons.lookup id = some addon)
    (hready : (firstBlocked ask addon.dependsOn t).1 = none) :
    fill ask id t = settle ask addon (firstBlocked ask addon.dependsOn t).2 := by
  rw [fill, bind_apply, get_apply]
  simp only [hid]
  rw [bind_apply, hready]
  rfl

theorem settle_of_unplaced (hplace : cacheKey? addon t = (none, t)) :
    settle ask addon t = compute ask addon none t := by
  rw [settle, bind_apply, hplace]
  rfl

theorem cacheKey?_of_noCache (addon : Addon) (h : t.cache = none) :
    cacheKey? addon t = (none, t) := by
  rw [cacheKey?, bind_apply, get_apply]
  simp only [h]
  rfl

theorem fill_of_ready (hid : t.addons.lookup id = some addon)
    (hready : (firstBlocked ask addon.dependsOn t).1 = none)
    (hcache : (firstBlocked ask addon.dependsOn t).2.cache = none) :
    fill ask id t = compute ask addon none (firstBlocked ask addon.dependsOn t).2 := by
  rw [fill_of_settled hid hready, settle_of_unplaced (cacheKey?_of_noCache addon hcache)]

theorem settle_of_placed (hplace : cacheKey? addon s = (place, u)) :
    settle ask addon s = match cached? addon place u with
      | some value => (.ready value, u)
      | none => compute ask addon place u := by
  rw [settle, bind_apply, hplace]
  simp only
  rw [bind_apply, get_apply]
  cases cached? addon place u <;> rfl

theorem cacheKey?_of_unkept (h : addon.persistVersion = none) :
    cacheKey? addon s = (none, s) := by
  rw [cacheKey?, bind_apply, get_apply]
  cases s.cache <;> simp only [h] <;> rfl

theorem cacheKey?_of_kept {version : Nat} (hcache : s.cache = some c)
    (hversion : addon.persistVersion = some version) : cacheKey? addon s =
      (some (c, ⟨addon.id, version, (identify s).1⟩), (identify s).2) := by
  rw [cacheKey?, bind_apply, get_apply]
  simp only [hcache, hversion]
  rfl

theorem exists_cacheKey? (addon : Addon) (s : Store) :
    ∃ identity, (cacheKey? addon s).2 = { s with identity } := by
  rcases Option.eq_none_or_eq_some addon.persistVersion with hversion | ⟨version, hversion⟩
  · rw [cacheKey?_of_unkept hversion]
    exact ⟨s.identity, rfl⟩
  rcases Option.eq_none_or_eq_some s.cache with hcache | ⟨c, hcache⟩
  · rw [cacheKey?_of_noCache addon hcache]
    exact ⟨s.identity, rfl⟩
  · rw [cacheKey?_of_kept hcache hversion]
    exact ⟨_, rfl⟩

theorem exists_kept (addon : Addon) (place : Option (Cache × CacheKey)) (s : Store)
    (result : Except AddonStop AddonValue) :
    ∃ files, kept addon place s result = { s with files } := by
  cases result with
  | error stop => exact ⟨s.files, rfl⟩
  | ok value =>
    rw [kept, keep, modify_apply]
    cases place with
    | none => exact ⟨s.files, rfl⟩
    | some place =>
      cases addon.encode value with
      | none => exact ⟨s.files, rfl⟩
      | some j => exact ⟨_, rfl⟩

end Store

end EbuildAudit
