import EbuildAudit.Proofs.Addon.Session
import EbuildAudit.Proofs.Addon.Transparency

namespace EbuildAudit

namespace Question

variable {q q' : Question} {addon : Addon}

theorem Involves.cache_eq (h : q.Involves q') : q'.store.cache = q.store.cache := by
  induction h with
  | refl => rfl
  | tail _ hraises ih => exact hraises.grown.cache_eq.trans ih

theorem found?_of_unplaced (h : q.store.cache = none ∨ addon.persistVersion = none) :
    q.found? addon = none := by
  have hplace : (q.located addon).1 = none := by
    rcases h with hcache | hversion
    · rw [located, Store.cacheKey?_of_noCache addon ((q.asked_grown addon).cache_eq.trans hcache)]
    · rw [located, Store.cacheKey?_of_unkept hversion]
  rw [found?, hplace]
  rfl

end Question

namespace Store

variable {addons : List Addon} {addon : Addon} {start : AddonId} {s : Store} {q : Question}

theorem cache_after (s : Store) (uses : List Use) : (s.after uses).cache = s.cache := by
  induction uses generalizing s with
  | nil => rfl
  | cons use uses ih =>
    refine (ih _).trans ?_
    cases use with
    | get id => exact (s.question id).answer_grown.cache_eq
    | value read id => exact (s.question id).answer_grown.cache_eq
    | drop id => rfl

theorem Rested.opens (h : s.Rested addons) (hq : (s.question start).Involves q)
    (haddon : Addon.last? addons q.id = some addon) (hnew : q.store.slots.lookup q.id = none) :
    q.Opens addon := by
  obtain ⟨path, hpath⟩ := h.awaitedBy hq
  refine ⟨hpath.room_pos, hnew, ?_⟩
  rw [hpath.store, Addon.lookup_byId, haddon]

/--
An addon that was dropped, or never asked for, is computed by the next question for it just if the
cache has no value that counts, given that what it depends on is ready. What it comes to is what
was computed, or else that value, and is remembered.
-/
theorem recomputed_iff (addons : List Addon) (files : FileTree) (root : String)
    (settings : AddonSettings) (load : Loader) (cache : Option Cache) (uses : List Use)
    (start : AddonId) (q : Question) (addon : Addon)
    (hq : (((Store.new addons files root settings load cache).after uses).question
      start).Involves q)
    (haddon : Addon.last? addons q.id = some addon) (hnew : q.store.slots.lookup q.id = none)
    (hready : q.Ready addon) :
    (q.answer.2.callsOf q.id = q.store.callsOf q.id + 1 ↔ q.found? addon = none) ∧
    (q.found? addon = none → q.answer.1 = .ofComputed (q.computed addon).1) ∧
    (∀ value, q.found? addon = some value →
      q.answer.1 = .ready value ∧ q.answer.2.callsOf q.id = q.store.callsOf q.id) ∧
    q.answer.2.slots.lookup q.id = some (.full q.answer.1) ∧
    (cache = none ∨ addon.persistVersion = none → q.found? addon = none) := by
  have hrested := (Rested.new addons files root settings load cache).after uses
  have hopens := hrested.opens hq haddon hnew
  have htidy := hq.tidy hrested.tidy
  refine ⟨⟨fun hcalls => ?_, fun hfound => ?_⟩, fun hfound => ?_, fun value hfound => ?_, ?_, ?_⟩
  · cases hfound : q.found? addon with
    | none => rfl
    | some value =>
      have hsame := hopens.callsOf_of_found htidy hready hfound
      omega
  · exact Question.Calls.callsOf_answer htidy ⟨hopens, hready, hfound⟩
  · rw [Question.Calls.answer_eq ⟨hopens, hready, hfound⟩]
  · refine ⟨?_, hopens.callsOf_of_found htidy hready hfound⟩
    rw [hopens.answer_of_found hready hfound]
  · refine q.course.recorded hopens.room.ne' ?_
    rw [hnew]
    exact (Option.some_ne_none _).symm
  · intro h
    apply Question.found?_of_unplaced
    rwa [hq.cache_eq, question, cache_after]

end Store

namespace Sample

def tally : Addon where
  id := "n"
  dependsOn := []
  persistVersion := some 1
  compute around := .done (.ok (.number around.calls))
  encode
  decode

def tallying (cache : Option Cache) : Store :=
  .new [tally] checkedOut "r" ⟨false, none⟩ .ebuilds cache

end Sample

open Sample

theorem Store.recomputed_iff_tally :
    let t := (tallying none).after [.get "n", .drop "n"]
    t.slots.lookup "n" = none ∧ (outcome "n" t).2.callsOf "n" = t.callsOf "n" + 1 ∧
      (outcome "n" t).1 = .ready (.number 2) := by
  intro t
  have hnew : t.slots.lookup "n" = none := by decide +kernel
  obtain ⟨hcalls, -, -, -, hfound⟩ := recomputed_iff [tally] checkedOut "r" ⟨false, none⟩ .ebuilds
    none [.get "n", .drop "n"] "n" (t.question "n") tally .refl rfl hnew rfl
  exact ⟨hnew, hcalls.2 (hfound (.inl rfl)), by decide +kernel⟩

/-- With a cache it comes back as it was, and nothing is computed. -/
theorem Store.not_recomputed_tally :
    let s := tallying (some Sample.cache)
    let t := s.after [.get "n", .drop "n"]
    t.slots.lookup "n" = none ∧ (t.question "n").Ready tally ∧
      (outcome "n" s).1 = .ready (.number 1) ∧ (outcome "n" t).1 = .ready (.number 1) ∧
      (outcome "n" t).2.callsOf "n" = t.callsOf "n" := by
  have hslot : ((tallying (some Sample.cache)).after [.get "n", .drop "n"]).slots.lookup "n" =
      none := by decide +kernel
  have hanswers : (outcome "n" (tallying (some Sample.cache))).1 = .ready (.number 1) ∧
      (outcome "n" ((tallying (some Sample.cache)).after [.get "n", .drop "n"])).1 =
        .ready (.number 1) ∧
      (outcome "n" ((tallying (some Sample.cache)).after [.get "n", .drop "n"])).2.callsOf "n" =
        ((tallying (some Sample.cache)).after [.get "n", .drop "n"]).callsOf "n" := by
    decide +kernel
  exact ⟨hslot, rfl, hanswers⟩

end EbuildAudit
