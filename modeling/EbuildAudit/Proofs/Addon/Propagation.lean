import EbuildAudit.Proofs.Addon.Session
import EbuildAudit.Proofs.Scan.Isolation

namespace EbuildAudit

namespace Store

inductive Finds (slots : List (AddonId × Slot)) : List AddonId → Option Outcome → Prop
  | nil : Finds slots [] none
  | blocked {d : AddonId} {ids : List AddonId} {o blocked : Outcome} :
    slots.lookup d = some (.full o) → blocked? d o = some blocked →
    Finds slots (d :: ids) (some blocked)
  | ready {d : AddonId} {ids : List AddonId} {o : Outcome} {found : Option Outcome} :
    slots.lookup d = some (.full o) → blocked? d o = none → Finds slots ids found →
    Finds slots (d :: ids) found

/-- If a dependency that is not ready was found, then the outcome comes from there. -/
def Follows (slots : List (AddonId × Slot)) (addon : Addon) (o : Outcome) : Prop :=
  ∃ found, Finds slots addon.dependsOn found ∧ ∀ blocked, found = some blocked → o = blocked

def Settled (s : Store) : Prop :=
  ∀ id addon o, s.addons.lookup id = some addon → s.slots.lookup id = some (.full o) →
    Follows s.slots addon o

def Unfailing (s : Store) : Prop :=
  ∀ id reason, s.addons.lookup id ≠ none → s.slots.lookup id ≠ some (.full (.failed reason))

variable {s t u : Store} {ask : AddonId → StateM Store Outcome} {addons : List Addon}
  {addon : Addon} {id d : AddonId} {ids : List AddonId} {o blocked : Outcome} {v : Slot}
  {found : Option Outcome} {value : AddonValue} {reason : String}

namespace Finds

theorem mono (h : Finds s.slots ids found) (hst : Remembers s t) : Finds t.slots ids found := by
  induction h with
  | nil => exact .nil
  | blocked hslot hblocked => exact .blocked (hst hslot) hblocked
  | ready hslot hready _ ih => exact .ready (hst hslot) hready ih

theorem ready_of_none (h : Finds s.slots ids none) :
    ∀ d ∈ ids, ∃ value, s.slots.lookup d = some (.full (.ready value)) := by
  induction ids with
  | nil => exact fun d hd => absurd hd List.not_mem_nil
  | cons e ids ih =>
    cases h with
    | ready hslot hready hrest =>
      obtain ⟨value, rfl⟩ := blocked?_eq_none hready
      intro d hd
      rcases List.mem_cons.1 hd with rfl | hd
      · exact ⟨value, hslot⟩
      · exact ih hrest d hd

theorem exists_of_some (h : Finds s.slots ids (some blocked)) :
    ∃ d ∈ ids, ∃ o, s.slots.lookup d = some (.full o) ∧ blocked? d o = some blocked := by
  generalize hfound : some blocked = found at h
  induction h with
  | nil => cases hfound
  | @blocked d ids o _ hslot hblocked =>
    cases hfound
    exact ⟨d, List.mem_cons_self, o, hslot, hblocked⟩
  | ready _ _ _ ih =>
    obtain ⟨d, hd, hslot⟩ := ih hfound
    exact ⟨d, List.mem_cons_of_mem _ hd, hslot⟩

theorem eq_findSome? (h : Finds s.slots ids found) :
    found = ids.findSome? fun d => blocked? d (s.answers d) := by
  induction h with
  | nil => rfl
  | blocked hslot hblocked => rw [List.findSome?_cons, answers_of_full hslot, hblocked]
  | ready hslot hready _ ih => rw [List.findSome?_cons, answers_of_full hslot, hready, ih]

theorem firstBlocked (hgrown : ∀ d t, Grown t (ask d t).2)
    (hrecorded : ∀ d t, (Query.dependencies ids).Puts ask s d t →
      (ask d t).2.slots.lookup d = some (.full (ask d t).1)) :
    Finds (firstBlocked ask ids s).2.slots ids (firstBlocked ask ids s).1 := by
  induction ids generalizing s with
  | nil => exact .nil
  | cons d ids ih =>
    have hslot := hrecorded d s .here
    rw [firstBlocked_cons]
    cases hblocked : blocked? d (ask d s).1 with
    | some blocked => exact .blocked hslot hblocked
    | none =>
      have hrest := ih fun e t (hputs : (Query.dependencies ids).Puts ask (ask d s).2 e t) =>
        hrecorded e t (.later (by rwa [hblocked]))
      exact .ready ((Grown.firstBlocked hgrown ids _).kept hslot) hblocked hrest

end Finds

theorem Follows.mono (h : Follows s.slots addon o) (hst : Remembers s t) :
    Follows t.slots addon o := by
  obtain ⟨found, hfinds, hfound⟩ := h
  exact ⟨found, hfinds.mono hst, hfound⟩

theorem Follows.ready (h : Follows s.slots addon (.ready value)) :
    ∀ d ∈ addon.dependsOn, ∃ value, s.slots.lookup d = some (.full (.ready value)) := by
  obtain ⟨found, hfinds, hfound⟩ := h
  cases found with
  | none => exact hfinds.ready_of_none
  | some blocked =>
    obtain ⟨d, -, o, -, hblocked⟩ := hfinds.exists_of_some
    exact absurd (hfound blocked rfl).symm (blocked?_ne_ready hblocked)

theorem Follows.eq_of_first (h : Follows s.slots addon o) {before after : List AddonId}
    (hdepends : addon.dependsOn = before ++ d :: after)
    (hbefore : ∀ e ∈ before, blocked? e (s.answers e) = none)
    (hblocked : blocked? d (s.answers d) = some blocked) : o = blocked := by
  obtain ⟨found, hfinds, hfound⟩ := h
  apply hfound
  rw [hfinds.eq_findSome?, hdepends, List.findSome?_append,
    List.findSome?_eq_none_iff.2 hbefore, List.findSome?_cons, hblocked]
  rfl

theorem Follows.of_first (h : Follows s.slots addon o) {before after : List AddonId}
    (hdepends : addon.dependsOn = before ++ d :: after)
    (hbefore : ∀ e ∈ before, ∃ value, s.answers e = .ready value) (reason : String) :
    (s.answers d = .failed reason → o = .failed ("dependency " ++ d ++ " failed: " ++ reason)) ∧
      (s.answers d = .disabled reason →
        o = .disabled ("dependency " ++ d ++ " disabled: " ++ reason)) := by
  have hready (e : AddonId) (he : e ∈ before) : blocked? e (s.answers e) = none := by
    obtain ⟨value, hvalue⟩ := hbefore e he
    rw [hvalue]
    rfl
  refine ⟨fun hd => ?_, fun hd => ?_⟩
  · exact h.eq_of_first hdepends hready (by rw [hd]; rfl)
  · exact h.eq_of_first hdepends hready (by rw [hd]; rfl)

namespace Settled

theorem indifferent : Indifferent Settled :=
  ⟨fun _ h => h, fun _ _ h => h⟩

theorem setSlot (h : s.Settled) (hremembers : Remembers s (s.setSlot id v))
    (hfollows : ∀ addon o, s.addons.lookup id = some addon → v = .full o →
      Follows s.slots addon o) : (s.setSlot id v).Settled := by
  intro k addon o hlookup hslot
  refine Follows.mono ?_ hremembers
  by_cases hk : k = id
  · subst hk
    rw [lookup_setSlot_self] at hslot
    exact hfollows addon o hlookup (Option.some.inj hslot)
  · rw [lookup_setSlot_of_ne _ _ hk] at hslot
    exact h k addon o hlookup hslot

end Settled

namespace Unfailing

theorem indifferent : Indifferent Unfailing :=
  ⟨fun _ h => h, fun _ _ h => h⟩

theorem setSlot (h : s.Unfailing)
    (hv : ∀ reason, s.addons.lookup id ≠ none → v ≠ .full (.failed reason)) :
    (s.setSlot id v).Unfailing := by
  intro k reason hlookup hslot
  by_cases hk : k = id
  · subst hk
    rw [lookup_setSlot_self] at hslot
    exact hv reason hlookup (Option.some.inj hslot)
  · rw [lookup_setSlot_of_ne _ _ hk] at hslot
    exact h k reason hlookup hslot

end Unfailing

end Store

namespace Question

open Store (Settled Finds Follows Unfailing)

variable {q : Question} {addon : Addon} {addons : List Addon} {o : Outcome} {t : Store}
  {path : List AddonId}

section

variable (hacyclic : ∀ id, ¬Relation.TransGen (Addon.LeadsTo addons) id id)
include hacyclic

theorem Opens.finds (h : q.Opens addon) (hq : q.AwaitedBy addons path) :
    Finds (Store.firstBlocked q.ask addon.dependsOn q.begun).2.slots addon.dependsOn
      (Store.firstBlocked q.ask addon.dependsOn q.begun).1 := by
  refine .firstBlocked (fun d t => answer_grown ⟨q.room - 1, d, t⟩) fun d t hputs => ?_
  exact (hq.raised (.dependency h hputs)).recorded hacyclic

theorem Fills.follows (h : q.Fills addon o t) (hopens : q.Opens addon)
    (hq : q.AwaitedBy addons path) : Follows t.slots addon o := by
  have hfinds := (hopens.finds hacyclic hq).mono h.grown_asked.remembers
  refine ⟨_, hfinds, fun blocked hfound => ?_⟩
  cases h with
  | blocked hblocked => exact Option.some.inj (hblocked.symm.trans hfound)
  | found hready => exact absurd (hfound.symm.trans hready) (Option.some_ne_none _)
  | computed hcalls => exact absurd (hfound.symm.trans hcalls.ready) (Option.some_ne_none _)

theorem answer_settled (hq : q.AwaitedBy addons path) (h : q.store.Settled) :
    q.answer.2.Settled := by
  refine answer_keeps (C := fun q => ∃ path, q.AwaitedBy addons path) Settled.indifferent
    ?_ ?_ ?_ ?_ q ⟨path, hq⟩ h
  · rintro q q' ⟨path, hq⟩ hraises
    exact ⟨q.id :: path, hq.raised hraises⟩
  · rintro q - hnew h
    exact h.setSlot (.setSlot (.inr hnew)) fun _ _ _ hfilling => Slot.noConfusion hfilling
  · rintro q - hlookup h
    have hfilling := Store.lookup_setSlot_self q.store q.id .filling
    exact h.setSlot (.setSlot (.inl hfilling)) fun _ _ haddon => by cases hlookup.symm.trans haddon
  · rintro q addon o t ⟨path, hq⟩ hopens hfills h
    have hgrown := hfills.grown hopens
    have hfilling := hgrown.kept (Store.lookup_setSlot_self q.store q.id .filling)
    refine h.setSlot (.setSlot (.inl hfilling)) fun addon' o' haddon hfull => ?_
    rw [hgrown.addons_eq] at haddon
    obtain rfl := Option.some.inj (hopens.lookup.symm.trans haddon)
    obtain rfl := Slot.full.inj hfull
    exact hfills.follows hacyclic hopens hq

theorem Fills.ne_failed (h : q.Fills addon o t) (hopens : q.Opens addon)
    (hq : q.AwaitedBy addons path)
    (hdeclared : ∀ id d, Addon.Declares addons id d → Addon.last? addons d ≠ none)
    (hcalm : q.Calls addon → ∀ reason, Outcome.ofComputed (q.computed addon).1 ≠ .failed reason)
    (ht : t.Unfailing) (reason : String) : o ≠ .failed reason := by
  have haddons : t.addons = q.store.addons := (h.grown hopens).addons_eq
  cases h with
  | found => exact Outcome.noConfusion
  | computed hcalls => exact hcalm hcalls reason
  | blocked hblocked =>
    rintro rfl
    have hfinds := hopens.finds hacyclic hq
    rw [hblocked] at hfinds
    obtain ⟨d, hd, o, hslot, hfailed⟩ := hfinds.exists_of_some
    have hlast : Addon.last? addons q.id = some addon := by
      rw [← Addon.lookup_byId, ← hq.store, hopens.lookup]
    have hknown : (Store.firstBlocked q.ask addon.dependsOn q.begun).2.addons.lookup d ≠ none := by
      rw [haddons, hq.store, Addon.lookup_byId]
      exact hdeclared q.id d ⟨addon, hlast, hd⟩
    cases o with
    | ready => cases hfailed
    | failed reason => exact ht d reason hknown hslot
    | disabled => cases hfailed

theorem answer_unfailing (hq : q.AwaitedBy addons path)
    (hdeclared : ∀ id d, Addon.Declares addons id d → Addon.last? addons d ≠ none)
    (hcalm : ∀ q', q.Involves q' → ∀ addon, q'.Calls addon → ∀ reason,
      Outcome.ofComputed (q'.computed addon).1 ≠ .failed reason)
    (h : q.store.Unfailing) : q.answer.2.Unfailing := by
  refine answer_keeps (C := fun q' => q.Involves q' ∧ ∃ path, q'.AwaitedBy addons path)
    Unfailing.indifferent ?_ ?_ ?_ ?_ q ⟨.refl, path, hq⟩ h
  · rintro q' q'' ⟨hinvolves, path, hq'⟩ hraises
    exact ⟨hinvolves.tail hraises, q'.id :: path, hq'.raised hraises⟩
  · rintro q' - - h
    exact h.setSlot fun _ _ hfilling => Slot.noConfusion hfilling
  · rintro q' - hlookup h
    exact h.setSlot fun _ haddon => absurd hlookup haddon
  · rintro q' addon o t ⟨hinvolves, path, hq'⟩ hopens hfills h
    refine h.setSlot fun reason _ hfull => ?_
    exact hfills.ne_failed hacyclic hopens hq' hdeclared (hcalm q' hinvolves addon) h reason
      (Slot.full.inj hfull)

end

end Question

namespace Store

variable {s t u : Store} {addons : List Addon} {id d start : AddonId} {q : Question}

theorem ofComputed_ne_failed {computed : Except AddonStop AddonValue}
    (h : (∃ value, computed = .ok value) ∨ ∃ reason, computed = .error (.disabled reason))
    (reason : String) : Outcome.ofComputed computed ≠ .failed reason := by
  rcases h with ⟨value, rfl⟩ | ⟨reason', rfl⟩
  · exact Outcome.noConfusion
  · exact Outcome.noConfusion

theorem Settled.lookup_ready (h : s.Settled) (hs : s.Rested addons)
    (hid : ∃ value, s.slots.lookup id = some (.full (.ready value)))
    (hleads : Relation.ReflTransGen (Addon.Declares addons) id d) :
    ∃ value, s.slots.lookup d = some (.full (.ready value)) := by
  induction hleads with
  | refl => exact hid
  | tail _ hdeclares ih =>
    obtain ⟨addon, haddon, hd⟩ := hdeclares
    obtain ⟨value, hslot⟩ := ih
    rw [← Addon.lookup_byId, ← hs.store] at haddon
    exact (h _ addon _ haddon hslot).ready _ hd

section

variable (hacyclic : ∀ id, ¬Relation.TransGen (Addon.LeadsTo addons) id id)
  (hs : s.Rested addons)
include hacyclic hs

theorem Settled.asked (h : s.Settled) (ht : Asked s t) : t.Settled := by
  induction ht with
  | refl => exact h
  | @ask t id ht ih =>
    have hrested := hs.asked ht
    exact (t.question id).answer_settled hacyclic (.start hrested.store hrested.idle id) ih

theorem lookup_outcome (id : AddonId) :
    (outcome id s).2.slots.lookup id = some (.full (s.answers id)) :=
  hs.recorded hacyclic (q := s.question id) .refl

theorem Unfailing.asked (h : s.Unfailing)
    (hdeclared : ∀ id d, Addon.Declares addons id d → Addon.last? addons d ≠ none)
    (hcalm : ∀ t, Asked s t → ∀ start q, (t.question start).Involves q → ∀ addon, q.Calls addon →
      ∀ reason, Outcome.ofComputed (q.computed addon).1 ≠ .failed reason)
    (ht : Asked s t) : t.Unfailing := by
  induction ht with
  | refl => exact h
  | @ask t id ht ih =>
    have hrested := hs.asked ht
    exact (t.question id).answer_unfailing hacyclic (.start hrested.store hrested.idle id) hdeclared
      (fun q hq => hcalm t ht id q hq) ih

theorem answers_ne_failed (h : s.Unfailing)
    (hdeclared : ∀ id d, Addon.Declares addons id d → Addon.last? addons d ≠ none)
    (hcalm : ∀ t, Asked s t → ∀ start q, (t.question start).Involves q → ∀ addon, q.Calls addon →
      ∀ reason, Outcome.ofComputed (q.computed addon).1 ≠ .failed reason)
    (ht : Asked s t) (hid : Addon.last? addons id ≠ none) (reason : String) :
    t.answers id ≠ .failed reason := by
  intro hfailed
  have hslot := lookup_outcome hacyclic (hs.asked ht) id
  rw [hfailed] at hslot
  refine h.asked hacyclic hs hdeclared hcalm (ht.ask id) id reason ?_ hslot
  rwa [((hs.asked ht).outcome id).store, Addon.lookup_byId]

end

theorem Rested.dependencies_ready (h : s.Rested addons) (hq : (s.question start).Involves q)
    (haddon : Addon.last? addons q.id = some addon)
    (hcalls : q.answer.2.callsOf q.id ≠ q.store.callsOf q.id) :
    ∀ d ∈ addon.dependsOn, ∃ value,
      (q.start addon).slots.lookup d = some (.full (.ready value)) := by
  obtain ⟨addon', hcalls⟩ := Question.exists_calls (hq.tidy h.tidy) hcalls
  obtain ⟨path, hpath⟩ := h.awaitedBy hq
  have hlookup := hcalls.lookup
  rw [hpath.store, Addon.lookup_byId, haddon] at hlookup
  obtain rfl := Option.some.inj hlookup
  exact hcalls.dependencies_ready

end Store

namespace Scan

variable {ctx : CheckContext} {c : Check} {s : Store} {notice : Issue}

theorem exists_skip_of_notice (h : notice ∈ (runCheck ctx c s).1.notices) :
    ∃ addon ∈ c.requiredAddons,
      skipNotice? c.name ctx.unit addon ((runCheck ctx c s).2.answers addon) = some notice := by
  rw [runCheck_eq .refl, reportWith] at h
  cases hskip : c.requiredAddons.findSome? fun addon =>
      skipNotice? c.name ctx.unit addon ((runCheck ctx c s).2.answers addon) with
  | none =>
    rw [hskip] at h
    cases h
  | some found =>
    rw [hskip] at h
    obtain rfl := List.mem_singleton.1 h
    exact List.exists_of_findSome?_eq_some hskip

theorem skipped_of_not_failed {check : String} {unit : ScanUnit} {addon : AddonId} {o : Outcome}
    (h : skipNotice? check unit addon o = some notice) (ho : ∀ reason, o ≠ .failed reason) :
    notice.kind = "SkippedCheck" ∧ notice.severity = .info := by
  cases o with
  | ready => cases h
  | failed reason => exact absurd rfl (ho reason)
  | disabled reason =>
    cases h
    exact ⟨rfl, rfl⟩

end Scan

namespace Store

/--
Where addons do not lead back to themselves, an addon is computed only when all that it declares is
ready, it is ready only if all that it reaches is, and the first dependency that is not ready
decides otherwise. If all that is declared is there, and addons come to a value or find that their
source is missing, then none fails and no check is skipped with an error.
-/
theorem outcomes_propagate (addons : List Addon) (files : FileTree) (root : String)
    (settings : AddonSettings) (load : Loader) (cache : Option Cache)
    (hacyclic : ∀ id, ¬Relation.TransGen (Addon.LeadsTo addons) id id) :
    let s := Store.new addons files root settings load cache
    (∀ t, Asked s t → ∀ start q, (t.question start).Involves q →
      ∀ addon, Addon.last? addons q.id = some addon →
        q.answer.2.callsOf q.id ≠ q.store.callsOf q.id → ∀ d ∈ addon.dependsOn, ∃ value,
          (q.start addon).slots.lookup d = some (.full (.ready value))) ∧
    (∀ t, Asked s t → ∀ id u, Asked (outcome id t).2 u →
      ((∃ value, t.answers id = .ready value) →
        ∀ d, Relation.ReflTransGen (Addon.Declares addons) id d →
          ∃ value, u.answers d = .ready value) ∧
      ∀ addon before d after, Addon.last? addons id = some addon →
        addon.dependsOn = before ++ d :: after →
        (∀ e ∈ before, ∃ value, u.answers e = .ready value) → ∀ reason,
          (u.answers d = .failed reason →
            t.answers id = .failed ("dependency " ++ d ++ " failed: " ++ reason)) ∧
          (u.answers d = .disabled reason →
            t.answers id = .disabled ("dependency " ++ d ++ " disabled: " ++ reason))) ∧
    ((∀ id d, Addon.Declares addons id d → Addon.last? addons d ≠ none) →
      (∀ t, Asked s t → ∀ start q, (t.question start).Involves q → ∀ addon, q.Calls addon →
        (∃ value, (q.computed addon).1 = .ok value) ∨
          ∃ reason, (q.computed addon).1 = .error (.disabled reason)) →
      ∀ t, Asked s t →
        (∀ id, Addon.last? addons id ≠ none → ∀ reason, t.answers id ≠ .failed reason) ∧
        ∀ ctx (c : Check), (∀ id ∈ c.requiredAddons, Addon.last? addons id ≠ none) →
          ∀ notice ∈ (Scan.runCheck ctx c t).1.notices,
            notice.kind = "SkippedCheck" ∧ notice.severity = .info) := by
  intro s
  have hs : s.Rested addons := .new addons files root settings load cache
  have hsettled : s.Settled := fun _ _ _ _ => nofun
  have hunfailing : s.Unfailing := fun _ _ _ => nofun
  refine ⟨fun t ht start q hq addon haddon hcalls => ?_, fun t ht id u hu => ?_,
    fun hdeclared hcomputed t ht => ?_⟩
  · exact (hs.asked ht).dependencies_ready hq haddon hcalls
  · have hslot := hu.lookup (lookup_outcome hacyclic (hs.asked ht) id)
    have hasked := (ht.ask id).trans hu
    have hu' := hs.asked hasked
    have hsettled' := hsettled.asked hacyclic hs hasked
    refine ⟨?_, fun addon before d after haddon hdepends hbefore reason => ?_⟩
    · rintro ⟨value, hvalue⟩ d hreaches
      rw [hvalue] at hslot
      obtain ⟨value', hd⟩ := hsettled'.lookup_ready hu' ⟨value, hslot⟩ hreaches
      exact ⟨value', answers_of_full hd⟩
    · rw [← Addon.lookup_byId, ← hu'.store] at haddon
      exact (hsettled' id addon _ haddon hslot).of_first hdepends hbefore reason
  · have hne {u : Store} (hu : Asked s u) {id : AddonId} (hid : Addon.last? addons id ≠ none) :=
      answers_ne_failed hacyclic hs hunfailing hdeclared (fun t ht start q hq addon hcalls =>
        ofComputed_ne_failed (hcomputed t ht start q hq addon hcalls)) hu hid
    refine ⟨fun id => hne ht, fun ctx c hrequired notice hnotice => ?_⟩
    obtain ⟨addon, haddon, hskip⟩ := Scan.exists_skip_of_notice hnotice
    have hasked := ht.trans (Scan.asked_runCheck ctx c t)
    exact Scan.skipped_of_not_failed hskip (hne hasked (hrequired addon haddon))

end Store

def Addon.missing (id : AddonId) : Addon :=
  { constant id [] 0 with compute := fun _ => .done (.error (.disabled "no source")) }

theorem Store.outcomes_propagate_missing :
    let addons : List Addon := [.constant "a" ["b"] 1, .missing "b"]
    let s : Store := .new addons .empty "" ⟨false, none⟩ .ebuilds none
    let version : ScanUnit := ⟨.version "a" "p" "1", "a/p/p-1.ebuild", 0⟩
    let report := (Scan.runCheck (.new Scan.unread version none [] 0)
      { Scan.crashing with requiredAddons := ["a"] } s).1
    s.answers "a" = .disabled "dependency b disabled: no source" ∧ report.notices.length = 1 ∧
      ∀ notice ∈ report.notices, notice.kind = "SkippedCheck" ∧ notice.severity = .info := by
  intro addons s version report
  have hregistry : Registry.new [] addons = .ok ⟨[], Addon.byId addons⟩ := by cbv
  have hmem {addon : Addon} (h : addon ∈ addons) :
      addon = .constant "a" ["b"] 1 ∨ addon = .missing "b" := by
    simpa [addons] using h
  have hasks : Addon.AskDeclared addons := by
    refine Addon.askDeclared_of_mem fun addon h around => ?_
    rcases hmem h with rfl | rfl
    · trivial
    · trivial
  have hknown : ∀ id ∈ ["a", "b"], Addon.last? addons id ≠ none := by
    simp [Addon.last?_ne_none, addons, Addon.missing, Addon.constant]
  have hdeclared (id d : AddonId) (h : Addon.Declares addons id d) :
      Addon.last? addons d ≠ none := by
    obtain ⟨addon, haddon, hd⟩ := h
    rcases hmem (Addon.mem_of_last? haddon) with rfl | rfl
    · exact hknown d (List.mem_cons_of_mem "a" hd)
    · cases hd
  have hcomputed (t : Store) (ht : Asked s t) (start : AddonId) (q : Question)
      (hq : (t.question start).Involves q) (addon : Addon) (hcalls : q.Calls addon) :
      (∃ value, (q.computed addon).1 = .ok value) ∨
        ∃ reason, (q.computed addon).1 = .error (.disabled reason) := by
    have hrested : t.Rested addons := (Rested.new addons _ _ _ _ _).asked ht
    obtain ⟨path, hpath⟩ := hrested.awaitedBy hq
    have hlookup := hcalls.lookup
    rw [hpath.store, Addon.lookup_byId] at hlookup
    rcases hmem (Addon.mem_of_last? hlookup) with rfl | rfl
    · exact .inl ⟨.number 1, rfl⟩
    · exact .inr ⟨"no source", rfl⟩
  obtain ⟨-, hspread, hcalm⟩ := outcomes_propagate addons .empty "" ⟨false, none⟩ .ebuilds none
    (hasks.acyclic (Registry.acyclic_of_new hregistry))
  obtain ⟨-, hfirst⟩ := hspread s .refl "a" _ .refl
  refine ⟨?_, by decide +kernel, ?_⟩
  · have hbefore (e : AddonId) (he : e ∈ []) :
        ∃ value, (outcome "a" s).2.answers e = .ready value := absurd he List.not_mem_nil
    exact (hfirst (.constant "a" ["b"] 1) [] "b" [] rfl rfl hbefore "no source").2
      (by decide +kernel)
  · refine (hcalm hdeclared hcomputed s .refl).2 _ _ fun id hid => ?_
    obtain rfl : id = "a" := List.mem_singleton.1 hid
    exact hknown "a" List.mem_cons_self

end EbuildAudit
