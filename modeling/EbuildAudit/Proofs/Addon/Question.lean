import EbuildAudit.Proofs.Addon.Growth
import Mathlib.Logic.Relation

namespace EbuildAudit

/-- An addon that is asked for in a store, with room for so many questions inside each other. -/
structure Question where
  room : Nat
  id : AddonId
  store : Store

namespace Question

def answer (q : Question) : Outcome × Store :=
  Store.getWithin q.room q.id q.store

def ask (q : Question) : AddonId → StateM Store Outcome :=
  Store.getWithin (q.room - 1)

def begun (q : Question) : Store :=
  q.store.setSlot q.id .filling

structure Opens (q : Question) (addon : Addon) : Prop where
  room : 0 < q.room
  new : q.store.slots.lookup q.id = none
  lookup : q.store.addons.lookup q.id = some addon

def Ready (q : Question) (addon : Addon) : Prop :=
  (Store.firstBlocked q.ask addon.dependsOn q.begun).1 = none

def located (q : Question) (addon : Addon) : Option (Cache × CacheKey) × Store :=
  Store.cacheKey? addon (Store.firstBlocked q.ask addon.dependsOn q.begun).2

def found? (q : Question) (addon : Addon) : Option AddonValue :=
  Store.cached? addon (q.located addon).1 (q.located addon).2

def start (q : Question) (addon : Addon) : Store :=
  (q.located addon).2.computing addon

def computation (q : Question) (addon : Addon) : Query (Except AddonStop AddonValue) :=
  addon.compute ((q.start addon).surroundings ((q.start addon).callsOf addon.id))

def computed (q : Question) (addon : Addon) : Except AddonStop AddonValue × Store :=
  (q.computation addon).answer q.ask (q.start addon)

structure Calls (q : Question) (addon : Addon) : Prop extends q.Opens addon where
  ready : q.Ready addon
  missing : q.found? addon = none

inductive Fills (q : Question) (addon : Addon) : Outcome → Store → Prop
  | blocked {o : Outcome} : (Store.firstBlocked q.ask addon.dependsOn q.begun).1 = some o →
    Fills q addon o (Store.firstBlocked q.ask addon.dependsOn q.begun).2
  | found {value : AddonValue} : q.Ready addon → q.found? addon = some value →
    Fills q addon (.ready value) (q.located addon).2
  | computed : q.Calls addon → Fills q addon (.ofComputed (q.computed addon).1)
    (Store.kept addon (q.located addon).1 (q.computed addon).2 (q.computed addon).1)

def unknown (q : Question) : Outcome :=
  .failed ("unknown addon " ++ q.id)

inductive Course (q : Question) : Outcome × Store → Prop
  | exhausted : q.room = 0 → Course q (Store.waiting q.id, q.store)
  | waits : 0 < q.room → q.store.slots.lookup q.id = some .filling →
    Course q (Store.waiting q.id, q.store)
  | known {o : Outcome} : 0 < q.room → q.store.slots.lookup q.id = some (.full o) →
    Course q (o, q.store)
  | unknown : 0 < q.room → q.store.slots.lookup q.id = none →
    q.store.addons.lookup q.id = none →
    Course q (q.unknown, q.begun.setSlot q.id (.full q.unknown))
  | fills {addon : Addon} {o : Outcome} {t : Store} : q.Opens addon → q.Fills addon o t →
    Course q (o, t.setSlot q.id (.full o))

inductive Raises (q : Question) : Question → Prop
  | dependency {addon : Addon} {d : AddonId} {t : Store} : q.Opens addon →
    (Query.dependencies addon.dependsOn).Puts q.ask q.begun d t → Raises q ⟨q.room - 1, d, t⟩
  | computation {addon : Addon} {d : AddonId} {t : Store} : q.Calls addon →
    (q.computation addon).Puts q.ask (q.start addon) d t → Raises q ⟨q.room - 1, d, t⟩

/-- The second question is the first one, or comes up while that is answered. -/
def Involves (q q' : Question) : Prop :=
  Relation.ReflTransGen Raises q q'

open Store (Grown Remembers)

variable {q q' : Question} {addon : Addon} {o : Outcome} {t : Store} {value : AddonValue}
  {result : Outcome × Store}

theorem Opens.exists_fills (h : q.Opens addon) :
    ∃ o t, Store.fill q.ask q.id q.begun = (o, t) ∧ q.Fills addon o t := by
  cases hblocked : (Store.firstBlocked q.ask addon.dependsOn q.begun).1 with
  | some o => exact ⟨_, _, Store.fill_of_blocked h.lookup hblocked, .blocked hblocked⟩
  | none =>
    have hplace : Store.cacheKey? addon (Store.firstBlocked q.ask addon.dependsOn q.begun).2 =
      ((q.located addon).1, (q.located addon).2) := rfl
    have hsettled := Store.fill_of_settled (t := q.begun) h.lookup hblocked
    rw [Store.settle_of_placed hplace, ← found?] at hsettled
    cases hfound : q.found? addon with
    | some value =>
      rw [hfound] at hsettled
      exact ⟨_, _, hsettled, .found hblocked hfound⟩
    | none =>
      rw [hfound] at hsettled
      exact ⟨_, _, hsettled.trans (Store.compute_eq _ _ _ _), .computed ⟨h, hblocked, hfound⟩⟩

theorem answer_of_new (hroom : 0 < q.room) (hnew : q.store.slots.lookup q.id = none)
    (hfill : Store.fill q.ask q.id q.begun = (o, t)) :
    q.answer = (o, t.setSlot q.id (.full o)) := by
  obtain ⟨room, id, s⟩ := q
  obtain ⟨n, rfl⟩ := Nat.exists_eq_add_one.2 hroom
  rw [answer, Store.getWithin_of_none hnew]
  exact congrArg (fun filled => (filled.1, filled.2.setSlot id (.full filled.1))) hfill

theorem course (q : Question) : q.Course q.answer := by
  cases hroom : q.room with
  | zero =>
    rw [answer, hroom]
    exact .exhausted hroom
  | succ n =>
    have hpos : 0 < q.room := hroom ▸ Nat.succ_pos n
    cases hslot : q.store.slots.lookup q.id with
    | none =>
      cases hlookup : q.store.addons.lookup q.id with
      | none =>
        rw [answer_of_new hpos hslot (Store.fill_of_unknown q.ask hlookup)]
        exact .unknown hpos hslot hlookup
      | some addon =>
        have hopens : q.Opens addon := ⟨hpos, hslot, hlookup⟩
        obtain ⟨o, t, hfill, hfills⟩ := hopens.exists_fills
        rw [answer_of_new hpos hslot hfill]
        exact .fills hopens hfills
    | some slot =>
      rw [answer, hroom]
      cases slot with
      | filling =>
        rw [Store.getWithin_of_filling hslot]
        exact .waits hpos hslot
      | full o =>
        rw [Store.getWithin_of_full hslot]
        exact .known hpos hslot

namespace Course

theorem fills_of_opens (h : q.Course result) (hopens : q.Opens addon) :
    ∃ o t, result = (o, t.setSlot q.id (.full o)) ∧ q.Fills addon o t := by
  cases h with
  | exhausted hroom => exact absurd hroom (Nat.ne_of_gt hopens.room)
  | waits _ hslot => cases hopens.new.symm.trans hslot
  | known _ hslot => cases hopens.new.symm.trans hslot
  | unknown _ _ hlookup => cases hopens.lookup.symm.trans hlookup
  | fills hopens' hfills =>
    obtain rfl := Option.some.inj (hopens'.lookup.symm.trans hopens.lookup)
    exact ⟨_, _, rfl, hfills⟩

theorem recorded (h : q.Course result) (hroom : q.room ≠ 0)
    (hslot : q.store.slots.lookup q.id ≠ some .filling) :
    result.2.slots.lookup q.id = some (.full result.1) := by
  cases h with
  | exhausted hzero => exact absurd hzero hroom
  | waits _ hfilling => exact absurd hfilling hslot
  | known _ hfull => exact hfull
  | unknown => exact Store.lookup_setSlot_self _ _ _
  | fills => exact Store.lookup_setSlot_self _ _ _

theorem slot_of_ready (h : q.Course result) (hready : result.1 = .ready value) :
    0 < q.room ∧ result.2.slots.lookup q.id = some (.full (.ready value)) := by
  rw [← hready]
  cases h with
  | exhausted => cases hready
  | waits => cases hready
  | known hroom hfull => exact ⟨hroom, hfull⟩
  | unknown => cases hready
  | fills hopens => exact ⟨hopens.room, Store.lookup_setSlot_self _ _ _⟩

end Course

theorem Opens.filled (h : q.Opens addon) :
    ∃ o t, q.answer = (o, t.setSlot q.id (.full o)) ∧ q.Fills addon o t :=
  q.course.fills_of_opens h

namespace Raises

theorem room (h : q.Raises q') : q'.room + 1 = q.room := by
  cases h with
  | dependency hopens => exact Nat.sub_add_cancel hopens.room
  | computation hcalls => exact Nat.sub_add_cancel hcalls.room

theorem opens (h : q.Raises q') : ∃ addon, q.Opens addon := by
  cases h with
  | dependency hopens => exact ⟨_, hopens⟩
  | computation hcalls => exact ⟨_, hcalls.toOpens⟩

end Raises

/-- What holds of a question if it holds of those that come up in its course. -/
theorem raises_induction {Q : Question → Prop} (h : ∀ q, (∀ q', q.Raises q' → Q q') → Q q)
    (q : Question) : Q q := by
  generalize hroom : q.room = n
  induction n generalizing q with
  | zero => exact h q fun q' hq' => absurd (hq'.room.trans hroom) (Nat.succ_ne_zero _)
  | succ n ih => exact h q fun q' hq' => ih q' (Nat.succ.inj (hq'.room.trans hroom))

section

variable {P : Store → Prop} (hP : Store.Indifferent P)
  (hask : ∀ q', q.Raises q' → P q'.store → P q'.answer.2) (hs : P q.begun)
include hask hs

theorem Opens.keeps (h : q.Opens addon) :
    P (Store.firstBlocked q.ask addon.dependsOn q.begun).2 := by
  rw [Query.firstBlocked_eq]
  exact Query.answer_keeps (fun d t hputs => hask ⟨q.room - 1, d, t⟩ (.dependency h hputs)) hs

include hP

theorem Calls.keeps (h : q.Calls addon) : P (q.start addon) :=
  hP.computing addon (hP.cacheKey? addon (h.toOpens.keeps hask hs))

theorem Raises.keeps (h : q.Raises q') : P q'.store := by
  cases h with
  | dependency hopens hputs =>
    exact hputs.keeps (fun d t hputs => hask ⟨q.room - 1, d, t⟩ (.dependency hopens hputs)) hs
  | computation hcalls hputs =>
    refine hputs.keeps (fun d t hputs => hask ⟨q.room - 1, d, t⟩ (.computation hcalls hputs)) ?_
    exact hcalls.keeps hP hask hs

theorem Fills.keeps (hopens : q.Opens addon) (h : q.Fills addon o t) : P t := by
  cases h with
  | blocked => exact hopens.keeps hask hs
  | found => exact hP.cacheKey? _ (hopens.keeps hask hs)
  | computed hcalls =>
    refine hP.kept _ _ _ (Query.answer_keeps (fun d t hputs => ?_) (hcalls.keeps hP hask hs))
    exact hask ⟨q.room - 1, d, t⟩ (.computation hcalls hputs)

end

theorem Course.grown (h : q.Course result)
    (hask : ∀ q', q.Raises q' → Grown q'.store q'.answer.2) : Grown q.store result.2 := by
  cases h with
  | exhausted => exact .refl _
  | waits => exact .refl _
  | known => exact .refl _
  | unknown _ hnew => exact (Grown.refl q.begun).filled hnew _
  | @fills addon o t hopens hfills =>
    have hbegun : Grown q.begun t :=
      hfills.keeps (.grown q.begun) (fun q' hq' h => h.trans (hask q' hq')) (.refl _) hopens
    exact hbegun.filled hopens.new o

theorem answer_grown (q : Question) : Grown q.store q.answer.2 :=
  raises_induction (fun q hask => q.course.grown hask) q

theorem Raises.grown (h : q.Raises q') : Grown q.begun q'.store :=
  h.keeps (.grown q.begun) (fun q' _ h => h.trans q'.answer_grown) (.refl _)

theorem Fills.grown (h : q.Fills addon o t) (hopens : q.Opens addon) : Grown q.begun t :=
  h.keeps (.grown q.begun) (fun q' _ h => h.trans q'.answer_grown) (.refl _) hopens

theorem answer_keeps {C : Question → Prop} {P : Store → Prop} (hP : Store.Indifferent P)
    (hraises : ∀ q q', C q → q.Raises q' → C q')
    (hbegun : ∀ q, C q → q.store.slots.lookup q.id = none → P q.store → P q.begun)
    (hunknown : ∀ q, C q → q.store.addons.lookup q.id = none → P q.begun →
      P (q.begun.setSlot q.id (.full q.unknown)))
    (hfilled : ∀ q addon o t, C q → q.Opens addon → q.Fills addon o t → P t →
      P (t.setSlot q.id (.full o)))
    (q : Question) (hq : C q) (hs : P q.store) : P q.answer.2 := by
  have hcourse {q : Question} {result : Outcome × Store} (h : q.Course result) (hq : C q)
      (hask : ∀ q', q.Raises q' → P q'.store → P q'.answer.2) (hs : P q.store) : P result.2 := by
    cases h with
    | exhausted => exact hs
    | waits => exact hs
    | known => exact hs
    | unknown _ hnew hlookup => exact hunknown q hq hlookup (hbegun q hq hnew hs)
    | fills hopens hfills =>
      have ht := hfills.keeps hP hask (hbegun q hq hopens.new hs) hopens
      exact hfilled q _ _ _ hq hopens hfills ht
  -- The condition goes down to the questions that come up; what is kept comes back from them.
  induction q using raises_induction with
  | h q ih => exact hcourse q.course hq (fun q' hq' => ih q' hq' (hraises q q' hq hq')) hs

theorem Calls.answer_eq (h : q.Calls addon) : q.answer =
    let o := Outcome.ofComputed (q.computed addon).1
    let t := Store.kept addon (q.located addon).1 (q.computed addon).2 (q.computed addon).1
    (o, t.setSlot q.id (.full o)) := by
  obtain ⟨o, t, hanswer, hfills⟩ := h.toOpens.filled
  cases hfills with
  | blocked hblocked => cases hblocked.symm.trans h.ready
  | found _ hfound => cases hfound.symm.trans h.missing
  | computed => exact hanswer

theorem Opens.answer_of_found (h : q.Opens addon) (hready : q.Ready addon)
    (hfound : q.found? addon = some value) :
    q.answer = (.ready value, (q.located addon).2.setSlot q.id (.full (.ready value))) := by
  obtain ⟨o, t, hanswer, hfills⟩ := h.filled
  cases hfills with
  | blocked hblocked => cases hblocked.symm.trans hready
  | found _ hfound' =>
    cases hfound'.symm.trans hfound
    exact hanswer
  | computed hcalls => cases hcalls.missing.symm.trans hfound

theorem Opens.ready_of_answer (h : q.Opens addon) (hanswer : q.answer.1 = .ready value) :
    q.Ready addon := by
  obtain ⟨o, t, hfilled, hfills⟩ := h.filled
  rw [hfilled] at hanswer
  cases hfills with
  | blocked hblocked => exact absurd hanswer (Store.firstBlocked_ne_ready hblocked)
  | found hready => exact hready
  | computed hcalls => exact hcalls.ready

theorem asked_grown (q : Question) (addon : Addon) :
    Grown q.begun (Store.firstBlocked q.ask addon.dependsOn q.begun).2 :=
  .firstBlocked (fun d t => answer_grown ⟨q.room - 1, d, t⟩) _ _

theorem start_grown (q : Question) (addon : Addon) :
    Grown (Store.firstBlocked q.ask addon.dependsOn q.begun).2 (q.start addon) :=
  (Store.Indifferent.grown _).computing _ ((Store.Indifferent.grown _).cacheKey? _ (.refl _))

theorem Fills.grown_asked (h : q.Fills addon o t) :
    Grown (Store.firstBlocked q.ask addon.dependsOn q.begun).2 t := by
  have hindifferent := Store.Indifferent.grown (Store.firstBlocked q.ask addon.dependsOn q.begun).2
  cases h with
  | blocked => exact .refl _
  | found => exact hindifferent.cacheKey? _ (.refl _)
  | computed =>
    have hcomputed : Grown (q.start addon) (q.computed addon).2 :=
      Query.answer_keeps (fun d t _ h => h.trans (answer_grown ⟨q.room - 1, d, t⟩)) (.refl _)
    exact hindifferent.kept _ _ _ ((q.start_grown addon).trans hcomputed)

theorem Opens.grown_after (h : q.Opens addon) : ∃ t,
    Grown (Store.firstBlocked q.ask addon.dependsOn q.begun).2 t ∧
      q.answer.2 = t.setSlot q.id (.full q.answer.1) := by
  obtain ⟨o, t, hanswer, hfills⟩ := h.filled
  rw [hanswer]
  exact ⟨t, hfills.grown_asked, rfl⟩

theorem Raises.grown_after (h : q.Raises q') : ∃ t,
    Grown q'.answer.2 t ∧ q.answer.2 = t.setSlot q.id (.full q.answer.1) := by
  have hask (d : AddonId) (t : Store) (h : Grown q'.answer.2 t) : Grown q'.answer.2 (q.ask d t).2 :=
    h.trans (answer_grown ⟨q.room - 1, d, t⟩)
  cases h with
  | dependency hopens hputs =>
    obtain ⟨t, hgrown, hanswer⟩ := hopens.grown_after
    rw [Query.firstBlocked_eq] at hgrown
    exact ⟨t, (hputs.keeps_after hask (.refl _)).trans hgrown, hanswer⟩
  | computation hcalls hputs =>
    have hcomputed := hputs.keeps_after hask (.refl _)
    rw [hcalls.answer_eq]
    exact ⟨_, (Store.Indifferent.grown _).kept _ _ _ hcomputed, rfl⟩

theorem Raises.remembers (h : q.Raises q') : Remembers q'.answer.2 q.answer.2 := by
  obtain ⟨t, hgrown, hanswer⟩ := h.grown_after
  have hfilling := ((h.grown.trans q'.answer_grown).trans hgrown).kept
    (Store.lookup_setSlot_self q.store q.id .filling)
  rw [hanswer]
  exact fun k o hk => Remembers.setSlot (.inl hfilling) (hgrown.kept hk)

theorem Involves.remembers (h : q.Involves q') : Remembers q'.answer.2 q.answer.2 := by
  induction h with
  | refl => exact fun _ _ hk => hk
  | tail _ hraises ih => exact fun _ _ hk => ih (hraises.remembers hk)

end Question

namespace Store

variable {s : Store} {id : AddonId} {ids : List AddonId} {value : AddonValue} {n : Nat}

def question (s : Store) (id : AddonId) : Question :=
  ⟨s.addons.length + 2, id, s⟩

theorem outcome_eq (id : AddonId) (s : Store) : outcome id s = (s.question id).answer :=
  rfl

theorem ready_of_firstBlocked (h : (firstBlocked (getWithin n) ids s).1 = none) :
    ∀ d ∈ ids, 0 < n ∧ ∃ value, (firstBlocked (getWithin n) ids s).2.slots.lookup d =
      some (.full (.ready value)) := by
  induction ids generalizing s with
  | nil => simp
  | cons d ids ih =>
    rw [firstBlocked_cons] at h ⊢
    cases hd : blocked? d (getWithin n d s).1 with
    | some blocked =>
      rw [hd] at h
      cases h
    | none =>
      rw [hd] at h
      intro e he
      rcases List.mem_cons.1 he with rfl | he
      · obtain ⟨value, hvalue⟩ := blocked?_eq_none hd
        obtain ⟨hn, hslot⟩ := (Question.course ⟨n, e, s⟩).slot_of_ready hvalue
        refine ⟨hn, value, ?_⟩
        exact (Grown.firstBlocked (fun d t => Question.answer_grown ⟨n, d, t⟩) ids _).kept hslot
      · exact ih h e he

end Store

theorem Question.Calls.dependencies_ready {q : Question} {addon : Addon} (h : q.Calls addon) :
    ∀ d ∈ addon.dependsOn, ∃ value,
      (q.start addon).slots.lookup d = some (.full (.ready value)) := by
  intro d hd
  obtain ⟨-, value, hslot⟩ := Store.ready_of_firstBlocked h.ready d hd
  exact ⟨value, (q.start_grown addon).kept hslot⟩

end EbuildAudit
