import EbuildAudit.Proofs.Addon.Agreement
import EbuildAudit.Proofs.Addon.Layered
import EbuildAudit.Proofs.Addon.Opening

/-!
A store with a cache keeps step with one that has none. Both take the dependencies of an addon
first, and these are ready before the cache is looked at; so what is found there is what the other
store computes.
-/

namespace EbuildAudit.Store

variable {law : Law} {c : Cache} {openings opened : Set Opening} {o : Opening}
  {s t u : Store} {ask : AddonId → StateM Store Outcome} {ids : List AddonId} {id d : AddonId}
  {addon : Addon} {place : Option (Cache × CacheKey)} {result blocked : Outcome}
  {value : AddonValue} {values : AddonId → AddonValue} {n : Nat}

theorem cached?_eq_some {key : CacheKey} (h : cached? addon (some (c, key)) s = some value) :
    ∃ j, c.load? s.files key = some j ∧ addon.decode j = some value :=
  Option.bind_eq_some_iff.1 h

theorem getWithin_of_ready (hn : 0 < n) (h : s.slots.lookup id = some (.full (.ready value))) :
    getWithin n id s = (.ready value, s) := by
  obtain ⟨m, rfl⟩ := Nat.exists_eq_succ_of_ne_zero hn.ne'
  exact getWithin_of_full h

theorem answer_of_ready {q : Query α} (hq : q.AsksOnly ids)
    (hask : ∀ d ∈ ids, ask d s = (.ready (values d), s)) :
    q.answer ask s = (q.answer (m := Id) fun d => .ready (values d), s) := by
  induction q with
  | done a => rfl
  | ask addon next ih =>
    obtain ⟨hmem, hnext⟩ := hq
    change (next (ask addon s).1).answer ask (ask addon s).2 = _
    rw [hask addon hmem]
    exact ih _ (hnext _)

def OpenedBy (o : Opening) (s : Store) : Prop :=
  s.addons = Addon.byId o.addons ∧ s.root = o.root ∧ s.settings = o.settings ∧ s.load = o.load

structure Lockstep (law : Law) (c : Cache) (o : Opening) (s t : Store) : Prop where
  cached : s.OpenedBy o
  bare : t.OpenedBy o
  cache : s.cache = some c
  noCache : t.cache = none
  identity (identity : String) : s.identity = some identity → identity = o.identity
  slots : t.slots = s.slots
  sound (id : AddonId) (value : AddonValue) :
    s.slots.lookup id = some (.full (.ready value)) → o.Has law id value

structure Together (law : Law) (c : Cache) (openings opened : Set Opening) (o : Opening)
    (s t : Store) : Prop extends Lockstep law c o s t where
  files : o.states s.files
  bareFiles : o.states t.files
  honest : Honest law c openings opened s.files

def Allows (law : Law) (o : Opening) (id : AddonId) (result : Outcome) : Prop :=
  ∀ value, result = .ready value → o.Has law id value

namespace Together

theorem setSlot {slot : Slot} (hslot : ∀ value, slot = .full (.ready value) → o.Has law id value)
    (s t : Store) (h : Together law c openings opened o s t) :
    Together law c openings opened o (s.setSlot id slot) (t.setSlot id slot) where
  __ := h
  slots := by rw [Store.setSlot, Store.setSlot, h.slots]
  sound k value hk := by
    by_cases hne : k = id
    · rw [hne, lookup_setSlot_self] at hk
      rw [hne]
      exact hslot value (Option.some.inj hk)
    · rw [lookup_setSlot_of_ne _ _ hne] at hk
      exact h.sound k value hk

theorem computing_left (h : Together law c openings opened o s t) (addon : Addon) :
    Together law c openings opened o (s.computing addon) t where
  __ := h

theorem computing_right (h : Together law c openings opened o s t) (addon : Addon) :
    Together law c openings opened o s (t.computing addon) where
  __ := h

theorem identified (h : Together law c openings opened o s t) :
    Together law c openings opened o { s with identity := some o.identity } t where
  __ := h
  identity _ hidentity := (Option.some.inj hidentity).symm

end Together

section

variable (hlawful : Lawful law c openings) (ho : o ∈ openings)
include hlawful ho

theorem Together.identify_eq (h : Together law c openings opened o s t) :
    identify s = (o.identity, { s with identity := some o.identity }) := by
  have hidentity : s.identity.getD (Repository.identity s.files s.root) = o.identity := by
    cases hs : s.identity with
    | none =>
      rw [h.cached.2.1]
      exact hlawful.identity ho h.files
    | some identity => exact h.identity identity hs
  rw [identify, hidentity]

theorem compute_of_ready (hid : o.addon? id = some addon) (hu : u.OpenedBy o)
    (hfiles : o.states u.files) (hn : ∀ d ∈ addon.dependsOn, 0 < n)
    (hready : ∀ d ∈ addon.dependsOn, u.slots.lookup d = some (.full (.ready (values d))))
    (place : Option (Cache × CacheKey)) : ∃ computed,
      .ofComputed computed = law id o.identity addon.persistVersion (addon.dependsOn.map values) ∧
      compute (getWithin n) addon place u =
        (.ofComputed computed, kept addon place (u.computing addon) computed) := by
  have hsurroundings (calls : Nat) : (u.computing addon).surroundings calls =
      ⟨u.files, o.root, o.settings, o.load, calls⟩ := by
    obtain ⟨-, hroot, hsettings, hload⟩ := hu
    rw [← hroot, ← hsettings, ← hload]
    rfl
  have hanswer := answer_of_ready (s := u.computing addon)
    (hlawful.asks ho hid ((u.computing addon).surroundings ((u.computing addon).callsOf addon.id)))
    fun d hd => getWithin_of_ready (hn d hd) (hready d hd)
  refine ⟨_, hlawful.outcome ho hid hfiles ((u.computing addon).callsOf addon.id) values, ?_⟩
  rw [compute_eq]
  simp only
  rw [hanswer, hsurroundings]

end

section

variable (hlawful : Lawful law c openings) (hopened : opened ⊆ openings) (ho : o ∈ opened)
include hlawful hopened ho

theorem Together.kept {key : CacheKey} {computed : Except AddonStop AddonValue}
    (h : Together law c openings opened o s t) (hkeeps : o.Keeps addon key)
    (hallows : Allows law o key.addon (.ofComputed computed)) :
    Together law c openings opened o (kept addon (some (c, key)) s computed) t := by
  cases computed with
  | error stop => exact h
  | ok value =>
    have hhas : o.Has law key.addon value := hallows value rfl
    rw [Store.kept, keep, modify_apply]
    cases hj : addon.encode value with
    | none => exact h
    | some j =>
      exact { h with
        files := hlawful.store (hopened ho) hkeeps h.files j
        honest := h.honest.store hlawful hopened ho hkeeps hhas hj }

theorem Together.eq_of_cached? {key : CacheKey} (hconsistent : Consistent law openings)
    (h : Together law c openings opened o s t) (hkeeps : o.Keeps addon key)
    (hvalues : ∀ d ∈ addon.dependsOn, o.Has law d (values d))
    (hcached : cached? addon (some (c, key)) s = some value) :
    law key.addon o.identity addon.persistVersion (addon.dependsOn.map values) = .ready value := by
  obtain ⟨j, hload, hdecode⟩ := cached?_eq_some hcached
  obtain ⟨o', ho', addon', value', hkeeps', hhas', hencode⟩ :=
    h.honest o (hopened ho) addon key hkeeps j hload
  have hvalue : value' = value := by
    rw [(hlawful.codec (hopened ho') (hopened ho) hkeeps' hkeeps hhas' hencode).2] at hdecode
    exact Option.some.inj hdecode
  obtain ⟨values', haddon', hvalues', hlaw⟩ := hhas'
  cases haddon'.symm.trans hkeeps'.lookup
  rw [hconsistent o (hopened ho) o' (hopened ho') addon addon' key hkeeps hkeeps' values values'
    hvalues hvalues', hkeeps.version, ← hkeeps'.version, ← hkeeps.identity, hkeeps'.identity,
    hlaw, hvalue]

theorem Together.settle_bare (hid : o.addon? id = some addon)
    (h : Together law c openings opened o s t) (hn : ∀ d ∈ addon.dependsOn, 0 < n)
    (hready : ∀ d ∈ addon.dependsOn, t.slots.lookup d = some (.full (.ready (values d)))) :
    (settle (getWithin n) addon t).1 =
        law id o.identity addon.persistVersion (addon.dependsOn.map values) ∧
      Together law c openings opened o s (settle (getWithin n) addon t).2 := by
  obtain ⟨computed, hcomputed, ht⟩ := compute_of_ready hlawful (hopened ho) hid h.bare h.bareFiles
    hn hready none
  rw [settle_of_unplaced (cacheKey?_of_noCache addon h.noCache), ht, kept_none]
  exact ⟨hcomputed, h.computing_right addon⟩

/-- With a cache it comes to the same, whether something counts there or not. -/
theorem Together.settle_cached (hconsistent : Consistent law openings)
    (hid : o.addon? id = some addon) (h : Together law c openings opened o s t)
    (hn : ∀ d ∈ addon.dependsOn, 0 < n)
    (hready : ∀ d ∈ addon.dependsOn, s.slots.lookup d = some (.full (.ready (values d)))) :
    (settle (getWithin n) addon s).1 =
        law id o.identity addon.persistVersion (addon.dependsOn.map values) ∧
      Together law c openings opened o (settle (getWithin n) addon s).2 t := by
  have hhas (d : AddonId) (hd : d ∈ addon.dependsOn) : o.Has law d (values d) :=
    h.sound d _ (hready d hd)
  cases hversion : addon.persistVersion with
  | none =>
    obtain ⟨computed, hcomputed, hs⟩ := compute_of_ready hlawful (hopened ho) hid h.cached
      h.files hn hready none
    rw [settle_of_unplaced (cacheKey?_of_unkept hversion), hs, kept_none, ← hversion]
    exact ⟨hcomputed, h.computing_left addon⟩
  | some version =>
    obtain rfl : addon.id = id := Opening.id_of_addon? hid
    have hkeeps : o.Keeps addon ⟨addon.id, version, o.identity⟩ := ⟨hid, hversion, rfl⟩
    have hplace := cacheKey?_of_kept h.cache hversion
    rw [h.identify_eq hlawful (hopened ho)] at hplace
    -- Asking for the key settles what state the repository is in, and nothing else.
    have hidentified := h.identified
    rw [settle_of_placed hplace, ← hversion]
    cases hcached : cached? addon _ _ with
    | some value =>
      have hvalue := hidentified.eq_of_cached? hlawful hopened ho hconsistent hkeeps hhas hcached
      exact ⟨hvalue.symm, hidentified⟩
    | none =>
      obtain ⟨computed, hcomputed, hs⟩ := compute_of_ready hlawful (hopened ho) hid
        hidentified.cached hidentified.files hn hready (some (c, ⟨addon.id, version, o.identity⟩))
      have hallows : Allows law o addon.id (.ofComputed computed) :=
        fun value hvalue => .intro values hid hhas (hcomputed.symm.trans hvalue)
      simp only
      rw [hs]
      exact ⟨hcomputed, (hidentified.computing_left addon).kept hlawful hopened ho hkeeps hallows⟩

theorem Together.settle (hconsistent : Consistent law openings) (hid : o.addon? id = some addon)
    (h : Together law c openings opened o s t) (hready : ∀ d ∈ addon.dependsOn, 0 < n ∧ ∃ value,
      s.slots.lookup d = some (.full (.ready value))) :
    (settle (getWithin n) addon s).1 = (settle (getWithin n) addon t).1 ∧
      Allows law o id (settle (getWithin n) addon s).1 ∧
      Together law c openings opened o (settle (getWithin n) addon s).2
        (settle (getWithin n) addon t).2 := by
  have hn (d : AddonId) (hd : d ∈ addon.dependsOn) : 0 < n := (hready d hd).1
  obtain ⟨values, hvalues⟩ : ∃ values : AddonId → AddonValue, ∀ d ∈ addon.dependsOn,
      s.slots.lookup d = some (.full (.ready (values d))) := by
    have : Nonempty AddonValue := ⟨.number 0⟩
    choose! values hvalues using fun d hd => (hready d hd).2
    exact ⟨values, hvalues⟩
  obtain ⟨hs, hsettled⟩ := h.settle_cached hlawful hopened ho hconsistent hid hn hvalues
  obtain ⟨ht, hafter⟩ := hsettled.settle_bare hlawful hopened ho hid hn (by rwa [h.slots])
  have hhas (d : AddonId) (hd : d ∈ addon.dependsOn) : o.Has law d (values d) :=
    h.sound d _ (hvalues d hd)
  refine ⟨hs.trans ht.symm, fun value hvalue => ?_, hafter⟩
  exact .intro values hid hhas (hs.symm.trans hvalue)

theorem Together.fill (hconsistent : Consistent law openings) (hask : ∀ d,
      Agree (Together law c openings opened o) (Allows law o d) (getWithin n d) (getWithin n d))
    (id : AddonId) : Agree (Together law c openings opened o) (Allows law o id)
      (fill (getWithin n) id) (fill (getWithin n) id) := by
  intro s t h
  have hs : s.addons.lookup id = o.addon? id := by rw [h.cached.1, Opening.addon?]
  have ht : t.addons.lookup id = o.addon? id := by rw [h.bare.1, Opening.addon?]
  cases hid : o.addon? id with
  | none =>
    rw [fill_of_unknown _ (hs.trans hid), fill_of_unknown _ (ht.trans hid)]
    exact ⟨rfl, fun value hvalue => Outcome.noConfusion hvalue, h⟩
  | some addon =>
    have hdependencies (d : AddonId) (_ : d ∈ addon.dependsOn) := (hask d).forget
    obtain ⟨hsame, -, hafter⟩ := Agree.firstBlocked hdependencies s t h
    cases hblocked : (firstBlocked (Store.getWithin n) addon.dependsOn s).1 with
    | some blocked =>
      rw [hblocked] at hsame
      rw [fill_of_blocked (hs.trans hid) hblocked, fill_of_blocked (ht.trans hid) hsame.symm]
      exact ⟨rfl, fun value hvalue => absurd hvalue (firstBlocked_ne_ready hblocked), hafter⟩
    | none =>
      rw [hblocked] at hsame
      rw [fill_of_settled (hs.trans hid) hblocked, fill_of_settled (ht.trans hid) hsame.symm]
      exact hafter.settle hlawful hopened ho hconsistent hid (ready_of_firstBlocked hblocked)

theorem Together.getWithin (hconsistent : Consistent law openings) (n : Nat) (id : AddonId) :
    Agree (Together law c openings opened o) (Allows law o id) (getWithin n id)
      (getWithin n id) := by
  induction n generalizing id with
  | zero => exact Agree.pure fun value hvalue => Outcome.noConfusion hvalue
  | succ n ih =>
    refine Agree.bind_get fun s t h => ?_
    rw [h.slots]
    cases hslot : s.slots.lookup id with
    | none =>
      have hfill := Together.fill hlawful hopened ho hconsistent ih id
      have hfilling (value : AddonValue) (h : Slot.filling = .full (.ready value)) :
          o.Has law id value := Slot.noConfusion h
      refine Agree.bind (Agree.modify (Together.setSlot hfilling)) fun _ _ => ?_
      refine Agree.bind hfill fun result hresult => ?_
      refine Agree.bind (Agree.modify (Together.setSlot fun value h => ?_)) fun _ _ => .pure hresult
      exact hresult value (Slot.full.inj h)
    | some slot =>
      cases slot with
      | filling => exact .pure fun value hvalue => Outcome.noConfusion hvalue
      | full result =>
        refine .pure fun value hvalue => h.sound id value ?_
        rw [hslot, hvalue]

theorem Together.outcome (hconsistent : Consistent law openings) (id : AddonId) :
    Agree (Together law c openings opened o) (Allows law o id) (outcome id) (outcome id) := by
  intro s t h
  have hlength : t.addons.length = s.addons.length := by rw [h.cached.1, h.bare.1]
  rw [Store.outcome, Store.outcome, hlength]
  exact Together.getWithin hlawful hopened ho hconsistent _ id s t h

/-- What is asked for before makes no difference with a cache if it makes none without. -/
theorem Together.steady (hconsistent : Consistent law openings)
    (h : Together law c openings opened o s t) (ht : t.Steady) : s.Steady := by
  have hanswers {u u' : Store} (hu : Together law c openings opened o u u') :
      u.answers = u'.answers :=
    funext fun id => (Together.outcome hlawful hopened ho hconsistent id u u' hu).1
  have hasked {u : Store} (hu : Asked s u) :
      ∃ u', Asked t u' ∧ Together law c openings opened o u u' := by
    induction hu with
    | refl => exact ⟨t, .refl, h⟩
    | ask id _ ih =>
      obtain ⟨u', hu', htogether⟩ := ih
      exact ⟨_, hu'.ask id,
        (Together.outcome hlawful hopened ho hconsistent id _ _ htogether).2.2⟩
  intro u hu
  obtain ⟨u', hu', htogether⟩ := hasked hu
  rw [hanswers htogether, ht u' hu', hanswers h]

end

theorem dependencies_ready (haddon : s.addons.lookup id = some addon)
    (hnew : s.slots.lookup id = none) (h : (outcome id s).1 = .ready value) :
    ∀ d ∈ addon.dependsOn, ∃ value, (outcome d (outcome id s).2).1 = .ready value := by
  intro d hd
  have hopens : (s.question id).Opens addon := ⟨Nat.succ_pos _, hnew, haddon⟩
  obtain ⟨t, hgrown, hanswer⟩ := hopens.grown_after
  obtain ⟨-, value', hslot⟩ := ready_of_firstBlocked (hopens.ready_of_answer h) d hd
  have hfilling := (((s.question id).asked_grown addon).trans hgrown).kept
    (lookup_setSlot_self s id .filling)
  have hafter : (outcome id s).2.slots.lookup d = some (.full (.ready value')) := by
    rw [outcome_eq, hanswer]
    exact Remembers.setSlot (.inl hfilling) (hgrown.kept hslot)
  exact ⟨value', by rw [outcome, getWithin_of_full hafter]⟩

end EbuildAudit.Store
