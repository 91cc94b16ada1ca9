import EbuildAudit.Proofs.Addon.Awaiting
import EbuildAudit.Proofs.Addon.Counting
import EbuildAudit.Proofs.Addon.Standing

namespace EbuildAudit

inductive Use : Type 1
  | get (id : AddonId)
  | value {α : Type} (read : AddonValue → Option α) (id : AddonId)
  | drop (id : AddonId)

namespace Use

def apply : Use → Store → Store
  | get id, s => (Store.outcome id s).2
  | value read id, s => (Store.value read id s).2
  | drop id, s => s.invalidate id

def drops (id : AddonId) : Use → Bool
  | drop d => d == id
  | _ => false

end Use

namespace Store

def after (s : Store) (uses : List Use) : Store :=
  uses.foldl (fun t use => use.apply t) s

structure Rested (s : Store) (addons : List Addon) : Prop where
  store : s.addons = Addon.byId addons
  idle : s.Idle
  calls : Ascending.Sorted s.calls

variable {s t : Store} {addons : List Addon} {addon : Addon} {id k start : AddonId} {o : Outcome}
  {use : Use} {uses between : List Use} {q : Question} {value : AddonValue}

theorem lookup_invalidate_self (s : Store) (id : AddonId) :
    (s.invalidate id).slots.lookup id = none :=
  lookup_filter_self id s.slots

theorem lookup_invalidate_of_ne (s : Store) (h : k ≠ id) :
    (s.invalidate id).slots.lookup k = s.slots.lookup k :=
  lookup_filter_of_ne h s.slots

theorem allowance_invalidate (s : Store) (id k : AddonId) :
    (s.invalidate id).allowance k ≤ s.allowance k + if id = k then 1 else 0 := by
  by_cases hk : id = k
  · subst hk
    rw [allowance_of_new (lookup_invalidate_self s id), if_pos rfl]
    exact Nat.add_le_add_right (callsOf_le_allowance s id) 1
  · rw [allowance, lookup_invalidate_of_ne s (Ne.symm hk)]
    exact Nat.le_add_right _ _

theorem allowance_apply (h : s.Tidy) (use : Use) (id : AddonId) :
    (use.apply s).allowance id ≤ s.allowance id + if use.drops id then 1 else 0 := by
  cases use with
  | get d => exact ((s.question d).answer_spent h id).2
  | value read d => exact ((s.question d).answer_spent h id).2
  | drop d =>
    refine (allowance_invalidate s d id).trans_eq ?_
    simp [Use.drops]

theorem lookup_apply (hk : s.slots.lookup id = some (.full o)) (huse : use.drops id = false) :
    (use.apply s).slots.lookup id = some (.full o) := by
  cases use with
  | get d => exact (s.question d).answer_grown.kept hk
  | value read d => exact (s.question d).answer_grown.kept hk
  | drop d =>
    have hne : id ≠ d := by
      rintro rfl
      simp [Use.drops] at huse
    rwa [Use.apply, lookup_invalidate_of_ne s hne]

theorem lookup_after (hk : s.slots.lookup id = some (.full o))
    (huses : ∀ use ∈ uses, use.drops id = false) :
    (s.after uses).slots.lookup id = some (.full o) := by
  induction uses generalizing s with
  | nil => exact hk
  | cons use uses ih =>
    obtain ⟨huse, hrest⟩ := List.forall_mem_cons.1 huses
    exact ih (lookup_apply hk huse) hrest

namespace Rested

theorem new (addons : List Addon) (files : FileTree) (root : String) (settings : AddonSettings)
    (load : Loader) (cache : Option Cache) :
    (Store.new addons files root settings load cache).Rested addons :=
  ⟨rfl, fun _ => nofun, .nil⟩

theorem tidy (h : s.Rested addons) : s.Tidy where
  calls := h.calls
  names hlookup := Addon.id_of_last? (by rwa [← Addon.lookup_byId, ← h.store])

theorem outcome (h : s.Rested addons) (id : AddonId) : (outcome id s).2.Rested addons where
  store := (s.question id).answer_grown.addons_eq.trans h.store
  idle k hk := h.idle k ((s.question id).answer_grown.filling hk)
  calls := ((s.question id).answer_tidy h.tidy).calls

theorem asked (h : s.Rested addons) (ht : Asked s t) : t.Rested addons := by
  induction ht with
  | refl => exact h
  | ask id _ ih => exact ih.outcome id

theorem invalidate (h : s.Rested addons) (id : AddonId) : (s.invalidate id).Rested addons where
  store := h.store
  idle k hk := by
    by_cases hne : k = id
    · rw [hne, lookup_invalidate_self] at hk
      cases hk
    · rw [lookup_invalidate_of_ne s hne] at hk
      exact h.idle k hk
  calls := h.calls

theorem apply (h : s.Rested addons) (use : Use) : (use.apply s).Rested addons := by
  cases use with
  | get id => exact h.outcome id
  | value read id => exact h.outcome id
  | drop id => exact h.invalidate id

theorem after (h : s.Rested addons) (uses : List Use) : (s.after uses).Rested addons := by
  induction uses generalizing s with
  | nil => exact h
  | cons use uses ih => exact ih (h.apply use)

theorem allowance_after (h : s.Rested addons) (uses : List Use) (id : AddonId) :
    (s.after uses).allowance id ≤ s.allowance id + uses.countP (·.drops id) := by
  induction uses generalizing s with
  | nil => exact Nat.le_refl _
  | cons use uses ih =>
    have hfirst := allowance_apply h.tidy use id
    have hrest := ih (h.apply use)
    rw [List.countP_cons]
    exact hrest.trans (by omega)

theorem awaitedBy (h : s.Rested addons) (hq : (s.question start).Involves q) :
    ∃ path, q.AwaitedBy addons path :=
  hq.awaitedBy (.start h.store h.idle start)

theorem recorded (h : s.Rested addons)
    (hacyclic : ∀ id, ¬Relation.TransGen (Addon.LeadsTo addons) id id)
    (hq : (s.question start).Involves q) :
    q.answer.2.slots.lookup q.id = some (.full q.answer.1) := by
  obtain ⟨path, hpath⟩ := h.awaitedBy hq
  exact hpath.recorded hacyclic

end Rested

theorem answers_of_full (h : s.slots.lookup id = some (.full o)) : s.answers id = o := by
  rw [answers, outcome, getWithin_of_full h]

theorem value_fst {α : Type} (read : AddonValue → Option α) (id : AddonId) (s : Store) :
    (Store.value read id s).1 = (s.answers id).value read id :=
  rfl

/--
Where addons ask for what they declare and do not lead back to themselves, no question meets an
addon that is being filled in. An addon is computed at most once, and once more for each time that
it is dropped; in between it comes to the same whenever it is asked for, also by other addons.
-/
theorem computed_once (addons : List Addon) (files : FileTree) (root : String)
    (settings : AddonSettings) (load : Loader) (cache : Option Cache)
    (hacyclic : ∀ id, ¬Relation.TransGen (Addon.Declares addons) id id)
    (hasks : Addon.AskDeclared addons) (uses : List Use) :
    let t := (Store.new addons files root settings load cache).after uses
    (∀ start q, (t.question start).Involves q →
      q.room ≠ 0 ∧ q.store.slots.lookup q.id ≠ some .filling) ∧
    (∀ id, t.callsOf id ≤ 1 + uses.countP (·.drops id)) ∧
    ∀ start q, (t.question start).Involves q →
      ∀ between : List Use, (∀ use ∈ between, use.drops q.id = false) →
        let u := (outcome start t).2.after between
        (outcome q.id u).1 = q.answer.1 ∧ ∀ (α : Type) (read : AddonValue → Option α),
          (Store.value read q.id u).1 = q.answer.1.value read q.id := by
  intro t
  have hnew := Rested.new addons files root settings load cache
  have ht : t.Rested addons := hnew.after uses
  have hleads := hasks.acyclic hacyclic
  refine ⟨fun start q hq => ?_, fun id => ?_, fun start q hq between hbetween => ?_⟩
  · obtain ⟨path, hpath⟩ := ht.awaitedBy hq
    exact ⟨hpath.room_pos.ne', hpath.not_filling hleads⟩
  · have hstart : (Store.new addons files root settings load cache).allowance id = 1 := rfl
    rw [← hstart]
    exact (callsOf_le_allowance t id).trans (hnew.allowance_after uses id)
  · have hslot := lookup_after (hq.remembers (ht.recorded hleads hq)) hbetween
    have hanswer := answers_of_full hslot
    exact ⟨hanswer, fun α read => by rw [← hanswer]; exact value_fst read q.id _⟩

end Store

def Addon.crashing (id : AddonId) : Addon :=
  { constant id [] 0 with compute := fun _ => .done (.error (.crashed .other)) }

theorem Store.computed_once_crashing :
    let addons : List Addon := [.constant "a" ["b"] 1, .crashing "b"]
    let s : Store := .new addons .empty "" ⟨false, none⟩ .ebuilds none
    let t := s.after [.get "a", .drop "b", .get "b", .value AddonValue.number? "b"]
    t.callsOf "b" = 2 ∧ t.callsOf "b" ≤ 1 + 1 ∧
      (outcome "b" ((outcome "b" t).2.after [.drop "a", .get "a"])).1 = (outcome "b" t).1 := by
  intro addons s t
  have hregistry : Registry.new [] addons = .ok ⟨[], Addon.byId addons⟩ := by cbv
  have hasks : Addon.AskDeclared addons := by
    apply Addon.askDeclared_of_mem
    simp only [addons, List.mem_cons, List.not_mem_nil, or_false]
    rintro addon (rfl | rfl) around
    · trivial
    · trivial
  obtain ⟨-, hcalls, hstands⟩ := computed_once addons .empty "" ⟨false, none⟩ .ebuilds none
    (Registry.acyclic_of_new hregistry) hasks
    [.get "a", .drop "b", .get "b", .value AddonValue.number? "b"]
  have hbetween : ∀ use ∈ ([.drop "a", .get "a"] : List Use), use.drops "b" = false := by
    simp [Use.drops]
  refine ⟨by decide +kernel, hcalls "b", ?_⟩
  exact (hstands "b" (t.question "b") .refl [.drop "a", .get "a"] hbetween).1

end EbuildAudit
