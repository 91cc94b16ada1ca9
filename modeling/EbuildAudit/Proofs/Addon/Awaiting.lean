import EbuildAudit.Proofs.Addon.Question
import EbuildAudit.Proofs.Registry.Validation
import Mathlib.Data.List.Perm.Subperm

namespace EbuildAudit

def Addon.LeadsTo (addons : List Addon) (id d : AddonId) : Prop :=
  ∃ addon, last? addons id = some addon ∧
    (d ∈ addon.dependsOn ∨ ∃ around, (addon.compute around).MayAsk d)

/-- Addons that ask for nothing but what they declare. -/
def Addon.AskDeclared (addons : List Addon) : Prop :=
  ∀ id addon, last? addons id = some addon → ∀ around,
    (addon.compute around).AsksOnly addon.dependsOn

def Store.Idle (s : Store) : Prop :=
  ∀ id, s.slots.lookup id ≠ some .filling

structure Question.AwaitedBy (q : Question) (addons : List Addon) (path : List AddonId) : Prop where
  store : q.store.addons = Addon.byId addons
  filling {k : AddonId} : q.store.slots.lookup k = some .filling ↔ k ∈ path
  leads {k : AddonId} : k ∈ path → Relation.TransGen (Addon.LeadsTo addons) k q.id
  known {k : AddonId} : k ∈ path → Addon.last? addons k ≠ none
  nodup : path.Nodup
  room : (Addon.byId addons).length < q.room + path.length

variable {q q' : Question} {addon : Addon} {addons : List Addon} {path : List AddonId}
  {id d : AddonId} {s : Store}

theorem Addon.askDeclared_of_mem
    (h : ∀ addon ∈ addons, ∀ around, (addon.compute around).AsksOnly addon.dependsOn) :
    AskDeclared addons :=
  fun _ addon haddon => h addon (mem_of_last? haddon)

theorem Addon.AskDeclared.declares (h : AskDeclared addons) (hleads : LeadsTo addons id d) :
    Declares addons id d := by
  obtain ⟨addon, haddon, hd⟩ := hleads
  refine ⟨addon, haddon, ?_⟩
  rcases hd with hd | ⟨around, hd⟩
  · exact hd
  · exact (h id addon haddon around).mem hd

theorem Addon.AskDeclared.acyclic (h : AskDeclared addons)
    (hacyclic : ∀ id, ¬Relation.TransGen (Declares addons) id id) (id : AddonId) :
    ¬Relation.TransGen (LeadsTo addons) id id :=
  fun hleads => hacyclic id (Relation.TransGen.mono (fun _ _ => h.declares) id id hleads)

namespace Question

theorem Raises.leadsTo (h : q.Raises q') (haddons : q.store.addons = Addon.byId addons) :
    Addon.LeadsTo addons q.id q'.id := by
  cases h with
  | @dependency addon d t hopens hputs =>
    refine ⟨addon, ?_, .inl (Query.mem_of_mayAsk_dependencies hputs.mayAsk)⟩
    rw [← Addon.lookup_byId, ← haddons, hopens.lookup]
  | @computation addon d t hcalls hputs =>
    refine ⟨addon, ?_, .inr ⟨_, hputs.mayAsk⟩⟩
    rw [← Addon.lookup_byId, ← haddons, hcalls.lookup]

namespace AwaitedBy

theorem start (haddons : s.addons = Addon.byId addons) (hidle : s.Idle) (id : AddonId) :
    (s.question id).AwaitedBy addons [] where
  store := haddons
  filling {k} := ⟨fun h => absurd h (hidle k), nofun⟩
  leads := nofun
  known := nofun
  nodup := .nil
  room := by
    rw [← haddons]
    exact Nat.lt_add_of_pos_right (Nat.succ_pos 1)

theorem length_le (h : q.AwaitedBy addons path) : path.length ≤ (Addon.byId addons).length := by
  have hsub : path ⊆ (Addon.byId addons).map (·.1) := by
    intro k hk
    obtain ⟨addon, haddon⟩ := Option.ne_none_iff_exists'.1 (h.known hk)
    exact List.mem_map_of_mem (Addon.mem_byId.2 haddon)
  simpa using (List.subperm_of_subset h.nodup hsub).length_le

theorem room_pos (h : q.AwaitedBy addons path) : 0 < q.room := by
  have hroom := h.room
  have hlength := h.length_le
  omega

theorem not_filling (h : q.AwaitedBy addons path)
    (hacyclic : ∀ id, ¬Relation.TransGen (Addon.LeadsTo addons) id id) :
    q.store.slots.lookup q.id ≠ some .filling :=
  fun hfilling => hacyclic q.id (h.leads (h.filling.1 hfilling))

theorem recorded (h : q.AwaitedBy addons path)
    (hacyclic : ∀ id, ¬Relation.TransGen (Addon.LeadsTo addons) id id) :
    q.answer.2.slots.lookup q.id = some (.full q.answer.1) :=
  q.course.recorded h.room_pos.ne' (h.not_filling hacyclic)

theorem raised (h : q.AwaitedBy addons path) (hraises : q.Raises q') :
    q'.AwaitedBy addons (q.id :: path) := by
  obtain ⟨addon, hopens⟩ := hraises.opens
  have hlookup : Addon.last? addons q.id = some addon := by
    rw [← Addon.lookup_byId, ← h.store, hopens.lookup]
  have hgrown := hraises.grown
  have hleads := hraises.leadsTo h.store
  refine ⟨hgrown.addons_eq.trans h.store, fun {k} => ?_, fun {k} hk => ?_, fun {k} hk => ?_, ?_, ?_⟩
  · -- While the question is answered, its own addon is filled in, and no other is begun for good.
    by_cases hne : k = q.id
    · subst hne
      exact ⟨fun _ => List.mem_cons_self, fun _ => hgrown.kept (Store.lookup_setSlot_self _ _ _)⟩
    · have hsame := Store.lookup_setSlot_of_ne q.store .filling hne
      rw [List.mem_cons, or_iff_right hne, ← h.filling, ← hsame]
      exact ⟨hgrown.filling, hgrown.kept⟩
  · rcases List.mem_cons.1 hk with rfl | hk
    · exact .single hleads
    · exact (h.leads hk).tail hleads
  · rcases List.mem_cons.1 hk with rfl | hk
    · exact hlookup ▸ Option.some_ne_none addon
    · exact h.known hk
  · -- An addon of the path has a slot, so it is not the one that is opened now.
    refine List.nodup_cons.2 ⟨fun hmem => ?_, h.nodup⟩
    cases hopens.new.symm.trans (h.filling.2 hmem)
  · have hroom := hraises.room
    have hfits := h.room
    rw [List.length_cons]
    omega

end AwaitedBy

theorem Involves.awaitedBy (h : q.Involves q') (hq : q.AwaitedBy addons path) :
    ∃ path', q'.AwaitedBy addons path' := by
  induction h with
  | refl => exact ⟨path, hq⟩
  | @tail q' q'' _ hraises ih =>
    obtain ⟨path', hpath'⟩ := ih
    exact ⟨q'.id :: path', hpath'.raised hraises⟩

end Question

end EbuildAudit
