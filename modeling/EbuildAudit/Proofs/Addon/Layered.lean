import EbuildAudit.Addon.Catalog
import EbuildAudit.Proofs.Addon.Standing

namespace EbuildAudit.Store

/-- Addons ask for declared ones of lower rank, and each time they are computed for the same. -/
structure Layered (s : Store) (rank : AddonId → Nat) : Prop where
  cache : s.cache = none
  bounded (id : AddonId) : rank id < s.addons.length + 2
  below {id : AddonId} {addon : Addon} : s.addons.lookup id = some addon →
    ∀ d ∈ addon.dependsOn, rank d < rank id
  asks {id : AddonId} {addon : Addon} : s.addons.lookup id = some addon →
    ∀ n, (addon.compute (s.surroundings n)).AsksOnly addon.dependsOn
  steady {id : AddonId} {addon : Addon} : s.addons.lookup id = some addon →
    ∀ n, addon.compute (s.surroundings n) = addon.compute (s.surroundings 0)

def outcomeFrom (s : Store) (value : AddonId → Outcome) (id : AddonId) : Outcome :=
  match s.addons.lookup id with
  | none => .failed ("unknown addon " ++ id)
  | some addon =>
    match addon.dependsOn.findSome? fun d => blocked? d (value d) with
    | some outcome => outcome
    | none => .ofComputed ((addon.compute (s.surroundings 0)).answer (m := Id) value)

def valueWithin (s : Store) : Nat → AddonId → Outcome
  | 0, id => waiting id
  | n + 1, id => s.outcomeFrom (s.valueWithin n) id

structure Sound (s : Store) (value : AddonId → Outcome) (F : AddonId → Prop) (t : Store) :
    Prop where
  frame : { t with slots := s.slots, calls := s.calls } = s
  full {id : AddonId} {o : Outcome} : t.slots.lookup id = some (.full o) → o = value id
  filling {id : AddonId} : t.slots.lookup id = some .filling → F id

variable {s t : Store} {rank : AddonId → Nat} {value value' : AddonId → Outcome}
  {F : AddonId → Prop} {ask : AddonId → StateM Store Outcome} {id : AddonId} {addon : Addon}
  {ids : List AddonId} {o : Outcome} {fuel m n : Nat}

theorem answer_congr {q : Query α} (hq : q.AsksOnly ids) (h : ∀ d ∈ ids, value d = value' d) :
    q.answer (m := Id) value = q.answer (m := Id) value' := by
  induction q with
  | done a => rfl
  | ask addon next ih =>
    obtain ⟨hmem, hnext⟩ := hq
    change (next (value addon)).answer (m := Id) value =
      (next (value' addon)).answer (m := Id) value'
    rw [ih _ (hnext _), h addon hmem]

theorem blocked_congr (h : ∀ d ∈ ids, value d = value' d) :
    (ids.findSome? fun d => blocked? d (value d)) =
      ids.findSome? fun d => blocked? d (value' d) := by
  induction ids with
  | nil => rfl
  | cons d ids ih =>
    rw [List.findSome?_cons, List.findSome?_cons, h d List.mem_cons_self,
      ih fun e he => h e (List.mem_cons_of_mem d he)]

namespace Layered

theorem outcomeFrom_congr (hs : s.Layered rank) (h : ∀ d, rank d < rank id → value d = value' d) :
    s.outcomeFrom value id = s.outcomeFrom value' id := by
  simp only [outcomeFrom]
  cases hid : s.addons.lookup id with
  | none => rfl
  | some addon =>
    have hbelow (d : AddonId) (hd : d ∈ addon.dependsOn) : value d = value' d :=
      h d (hs.below hid d hd)
    simp only
    rw [blocked_congr hbelow, answer_congr (hs.asks hid 0) hbelow]

theorem valueWithin_eq (hs : s.Layered rank) (hm : rank id < m) (hn : rank id < n) :
    s.valueWithin m id = s.valueWithin n id := by
  induction m generalizing id n with
  | zero => cases hm
  | succ m ih =>
    cases n with
    | zero => cases hn
    | succ n => exact hs.outcomeFrom_congr fun d hd => ih (by omega) (by omega)

theorem exists_value (hs : s.Layered rank) :
    ∃ value : AddonId → Outcome, ∀ id, value id = s.outcomeFrom value id := by
  refine ⟨fun id => s.valueWithin (rank id + 1) id, fun id => ?_⟩
  exact hs.outcomeFrom_congr fun d hd => hs.valueWithin_eq hd (Nat.lt_succ_self _)

end Layered

namespace Sound

theorem lookup (ht : Sound s value F t) (id : AddonId) : t.addons.lookup id = s.addons.lookup id :=
  congrArg (fun s => s.addons.lookup id) ht.frame

theorem surroundings_eq (ht : Sound s value F t) (n : Nat) : t.surroundings n = s.surroundings n :=
  congrArg (fun s => s.surroundings n) ht.frame

theorem start (hs : s.slots = []) : Sound s value F s where
  frame := rfl
  full h := by rw [hs] at h; cases h
  filling h := by rw [hs] at h; cases h

end Sound

def Answers (s : Store) (value : AddonId → Outcome) (F : AddonId → Prop)
    (ask : AddonId → StateM Store Outcome) (ids : List AddonId) : Prop :=
  ∀ d ∈ ids, ∀ t, Sound s value F t → (ask d t).1 = value d ∧ Sound s value F (ask d t).2

theorem firstBlocked_sound (hask : Answers s value F ask ids) (ht : Sound s value F t) :
    (firstBlocked ask ids t).1 = (ids.findSome? fun d => blocked? d (value d)) ∧
      Sound s value F (firstBlocked ask ids t).2 := by
  induction ids generalizing t with
  | nil => exact ⟨rfl, ht⟩
  | cons d ids ih =>
    obtain ⟨hvalue, hsound⟩ := hask d List.mem_cons_self t ht
    rw [firstBlocked_cons, List.findSome?_cons, hvalue]
    cases blocked? d (value d) with
    | some outcome => exact ⟨rfl, hsound⟩
    | none => exact ih (fun e he => hask e (List.mem_cons_of_mem d he)) hsound

theorem answer_sound {q : Query α} (hq : q.AsksOnly ids) (hask : Answers s value F ask ids)
    (ht : Sound s value F t) :
    (q.answer ask t).1 = q.answer (m := Id) value ∧ Sound s value F (q.answer ask t).2 := by
  induction q generalizing t with
  | done a => exact ⟨rfl, ht⟩
  | ask addon next ih =>
    obtain ⟨hmem, hnext⟩ := hq
    obtain ⟨hvalue, hsound⟩ := hask addon hmem t ht
    obtain ⟨hanswer, hafter⟩ := ih (ask addon t).1 (hnext _) hsound
    refine ⟨hanswer.trans ?_, hafter⟩
    rw [hvalue]
    rfl

theorem Layered.fill_sound (hs : s.Layered rank) (hvalue : ∀ id, value id = s.outcomeFrom value id)
    (hask : ∀ addon, s.addons.lookup id = some addon → Answers s value F ask addon.dependsOn)
    (ht : Sound s value F t) :
    (fill ask id t).1 = value id ∧ Sound s value F (fill ask id t).2 := by
  have hlookup := ht.lookup id
  rw [hvalue, outcomeFrom]
  cases hid : s.addons.lookup id with
  | none =>
    rw [hid] at hlookup
    rw [fill_of_unknown ask hlookup]
    exact ⟨rfl, ht⟩
  | some addon =>
    rw [hid] at hlookup
    obtain ⟨hblocked, hsound⟩ := firstBlocked_sound (hask addon hid) ht
    simp only
    cases hfirst : addon.dependsOn.findSome? fun d => blocked? d (value d) with
    | some outcome =>
      rw [hfirst] at hblocked
      rw [fill_of_blocked hlookup hblocked]
      exact ⟨rfl, hsound⟩
    | none =>
      rw [hfirst] at hblocked
      have hcache := (congrArg Store.cache hsound.frame).trans hs.cache
      rw [fill_of_ready hlookup hblocked hcache, compute_of_none]
      simp only
      generalize (firstBlocked ask addon.dependsOn t).2 = u at hsound
      have hcomputing : Sound s value F (u.computing addon) :=
        ⟨hsound.frame, hsound.full, hsound.filling⟩
      rw [hcomputing.surroundings_eq, hs.steady hid]
      obtain ⟨hanswer, hafter⟩ := answer_sound (hs.asks hid 0) (hask addon hid) hcomputing
      rw [hanswer]
      exact ⟨rfl, hafter⟩

theorem Layered.getWithin_sound (hs : s.Layered rank)
    (hvalue : ∀ id, value id = s.outcomeFrom value id) (hfuel : rank id < fuel)
    (hF : ∀ k, F k → rank id < rank k) (ht : Sound s value F t) :
    (getWithin fuel id t).1 = value id ∧ Sound s value F (getWithin fuel id t).2 := by
  induction fuel generalizing id F t with
  | zero => cases hfuel
  | succ fuel ih =>
    cases hslot : t.slots.lookup id with
    | some slot =>
      cases slot with
      | full outcome =>
        rw [getWithin_of_full hslot]
        exact ⟨ht.full hslot, ht⟩
      | filling => exact absurd (hF id (ht.filling hslot)) (Nat.lt_irrefl _)
    | none =>
      have hstart : Sound s value (fun k => F k ∨ k = id) (t.setSlot id .filling) := by
        refine ⟨ht.frame, fun {k o} h => ?_, fun {k} h => ?_⟩
        · by_cases hk : k = id
          · rw [hk, lookup_setSlot_self] at h
            cases h
          · rw [lookup_setSlot_of_ne _ _ hk] at h
            exact ht.full h
        · by_cases hk : k = id
          · exact .inr hk
          · rw [lookup_setSlot_of_ne _ _ hk] at h
            exact .inl (ht.filling h)
      have hask (addon : Addon) (hid : s.addons.lookup id = some addon) :
          Answers s value (fun k => F k ∨ k = id) (getWithin fuel) addon.dependsOn := by
        intro d hd u hu
        have hbelow := hs.below hid d hd
        refine ih (by omega) (fun k hk => ?_) hu
        rcases hk with hk | rfl
        · exact Nat.lt_trans hbelow (hF k hk)
        · exact hbelow
      obtain ⟨houtcome, hfilled⟩ := hs.fill_sound hvalue hask hstart
      rw [getWithin_of_none hslot]
      simp only
      refine ⟨houtcome, hfilled.frame, fun {k o} h => ?_, fun {k} h => ?_⟩
      · by_cases hk : k = id
        · rw [hk, lookup_setSlot_self] at h
          cases h
          rw [hk]
          exact houtcome
        · rw [lookup_setSlot_of_ne _ _ hk] at h
          exact hfilled.full h
      · by_cases hk : k = id
        · rw [hk, lookup_setSlot_self] at h
          cases h
        · rw [lookup_setSlot_of_ne _ _ hk] at h
          exact (hfilled.filling h).resolve_right hk

theorem Layered.outcome_sound (hs : s.Layered rank)
    (hvalue : ∀ id, value id = s.outcomeFrom value id) (id : AddonId)
    (ht : Sound s value (fun _ => False) t) :
    (outcome id t).1 = value id ∧ Sound s value (fun _ => False) (outcome id t).2 := by
  have hlength := congrArg (fun s => s.addons.length) ht.frame
  have hbounded := hs.bounded id
  rw [outcome]
  exact hs.getWithin_sound hvalue (hlength.symm ▸ hbounded) (fun _ h => h.elim) ht

theorem Layered.fixed (hs : s.Layered rank) (hslots : s.slots = []) : s.Fixed := by
  obtain ⟨value, hvalue⟩ := hs.exists_value
  have hsound {t : Store} (ht : Asked s t) : Sound s value (fun _ => False) t := by
    induction ht with
    | refl => exact .start hslots
    | ask id _ ih => exact (hs.outcome_sound hvalue id ih).2
  have hanswers {t : Store} (ht : Asked s t) : t.answers = value := by
    funext id
    exact (hs.outcome_sound hvalue id (hsound ht)).1
  constructor
  · intro t ht
    rw [hanswers ht, hanswers .refl]
  · intro t ht path
    exact congrArg (fun s => s.load s.files path) (hsound ht).frame

theorem layered_of_no_addons (hcache : s.cache = none) (haddons : s.addons = []) :
    s.Layered fun _ => 0 := by
  have hnone {id : AddonId} {addon : Addon} : s.addons.lookup id ≠ some addon := by
    rw [haddons]
    intro h
    cases h
  exact ⟨hcache, fun _ => Nat.succ_pos _, fun h => absurd h hnone, fun h => absurd h hnone,
    fun h => absurd h hnone⟩

theorem byId_builtin : Addon.byId Addon.builtin =
    [(.advisories, .advisories), (.packages, .packages), (.profiles, .profiles),
      (.useFlags, .useFlags)] :=
  rfl

/-- Of the addons of the program only the flags ask for another one. -/
theorem layered_builtin (files : FileTree) (root : String) (settings : AddonSettings)
    (load : Loader) : (Store.new Addon.builtin files root settings load none).Layered
      fun id => if id = .useFlags then 1 else 0 := by
  have hmem {id : AddonId} {addon : Addon}
      (h : (Store.new Addon.builtin files root settings load none).addons.lookup id = some addon) :
      addon = .advisories ∨ addon = .packages ∨ addon = .profiles ∨
        (id = .useFlags ∧ addon = .useFlags) := by
    have hmem := mem_of_lookup h
    rw [Store.new, byId_builtin] at hmem
    simp only [List.mem_cons, List.not_mem_nil, Prod.mk.injEq, or_false] at hmem
    rcases hmem with ⟨-, rfl⟩ | ⟨-, rfl⟩ | ⟨-, rfl⟩ | ⟨rfl, rfl⟩
    · exact .inl rfl
    · exact .inr (.inl rfl)
    · exact .inr (.inr (.inl rfl))
    · exact .inr (.inr (.inr ⟨rfl, rfl⟩))
  refine ⟨rfl, fun id => ?_, fun h d hd => ?_, fun h n => ?_, fun h n => ?_⟩
  · change (if id = .useFlags then 1 else 0) < 6
    split
    · decide
    · decide
  · rcases hmem h with rfl | rfl | rfl | ⟨rfl, rfl⟩
    · cases hd
    · cases hd
    · cases hd
    · cases List.mem_singleton.1 hd
      decide
  · rcases hmem h with rfl | rfl | rfl | ⟨rfl, rfl⟩
    · trivial
    · trivial
    · trivial
    · refine Query.AsksOnly.bind ⟨List.mem_cons_self, fun _ => trivial⟩ fun found => ?_
      cases found with
      | ok data => trivial
      | error fault => trivial
  · rcases hmem h with rfl | rfl | rfl | ⟨rfl, rfl⟩
    · rfl
    · rfl
    · rfl
    · rfl

end EbuildAudit.Store
