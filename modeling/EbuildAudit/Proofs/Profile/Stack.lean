import EbuildAudit.Profile.Data
import EbuildAudit.Proofs.Basic
import Mathlib.Logic.Relation

/-!
The order in which profiles inherit from each other. A walk along the parents adds what it had not
met before, each directory once; one that comes before one of its parents is inherited by it in turn.
So the stack of a profile holds what the profile inherits from, and without cycles it is in order.
-/

namespace EbuildAudit.Profile.Data

open Relation (ReflTransGen TransGen)

def HasParent (data : Data) (dir parent : String) : Prop :=
  parent ∈ data.parentsOf dir

/-- The first directory is the second, or inherits from it. -/
abbrev Inherits (data : Data) : String → String → Prop :=
  ReflTransGen data.HasParent

structure Leads (data : Data) (w : Walk) (dirs new : List String) (w' : Walk) : Prop where
  stack : w'.stack = w.stack ++ new
  mem_seen : ∀ dir, dir ∈ w'.seen ↔ dir ∈ w.seen ∨ dir ∈ new
  nodup : new.Nodup
  fresh : ∀ dir ∈ new, dir ∉ w.seen
  met : dirs ⊆ w'.seen
  inherited : ∀ dir ∈ new, ∃ start ∈ dirs, data.Inherits start dir
  closed : ∀ dir ∈ new, data.parentsOf dir ⊆ w'.seen
  ordered : new.Pairwise fun dir later => data.HasParent dir later → data.Inherits later dir

variable {data : Data} {w w₁ w₂ : Walk} {dir : String} {dirs new more : List String}

theorem exists_entry_of_hasParent {parent : String} (h : data.HasParent dir parent) :
    ∃ entry ∈ data.parents, entry.1 = dir ∧ parent ∈ entry.2 := by
  rw [HasParent, parentsOf] at h
  cases hlookup : data.parents.lookup dir with
  | none => simp [hlookup] at h
  | some parents =>
    rw [hlookup, Option.getD_some] at h
    exact ⟨(dir, parents), mem_of_lookup hlookup, rfl, h⟩

theorem visit_of_mem (h : dir ∈ w.seen) : (data.visit w dir).1 = w := by
  rw [visit, dif_pos h]

theorem visit_of_not_mem (h : dir ∉ w.seen) : (data.visit w dir).1 =
    let above := (data.visitAll { w with seen := dir :: w.seen } (data.parentsOf dir)).1
    { above with stack := above.stack ++ [dir] } := by
  rw [visit, dif_neg h]

theorem visitAll_nil : (data.visitAll w []).1 = w := by
  rw [visitAll]

theorem visitAll_cons :
    (data.visitAll w (dir :: dirs)).1 = (data.visitAll (data.visit w dir).1 dirs).1 := by
  rw [visitAll]

namespace Leads

theorem refl (h : dirs ⊆ w.seen) : data.Leads w dirs [] w where
  stack := (List.append_nil _).symm
  mem_seen dir := by simp
  nodup := List.nodup_nil
  fresh := nofun
  met := h
  inherited := nofun
  closed := nofun
  ordered := .nil

theorem keeps (h : data.Leads w dirs new w₁) : w.seen ⊆ w₁.seen :=
  fun dir hdir => (h.mem_seen dir).2 (.inl hdir)

theorem trans (h : data.Leads w [dir] new w₁) (h' : data.Leads w₁ dirs more w₂) :
    data.Leads w (dir :: dirs) (new ++ more) w₂ where
  stack := by rw [h'.stack, h.stack, List.append_assoc]
  mem_seen other := by rw [h'.mem_seen, h.mem_seen, List.mem_append, or_assoc]
  nodup := by
    refine List.nodup_append.2 ⟨h.nodup, h'.nodup, fun a ha b hb heq => ?_⟩
    exact h'.fresh b hb ((h.mem_seen b).2 (.inr (heq ▸ ha)))
  fresh other hother hseen := by
    rcases List.mem_append.1 hother with hnew | hmore
    · exact h.fresh other hnew hseen
    · exact h'.fresh other hmore (h.keeps hseen)
  met := List.cons_subset.2 ⟨h'.keeps (h.met List.mem_cons_self), h'.met⟩
  inherited other hother := by
    rcases List.mem_append.1 hother with hnew | hmore
    · obtain ⟨start, hstart, hinherits⟩ := h.inherited other hnew
      exact ⟨start, List.mem_cons.2 (.inl (List.mem_singleton.1 hstart)), hinherits⟩
    · obtain ⟨start, hstart, hinherits⟩ := h'.inherited other hmore
      exact ⟨start, List.mem_cons_of_mem _ hstart, hinherits⟩
  closed other hother := by
    rcases List.mem_append.1 hother with hnew | hmore
    · exact List.Subset.trans (h.closed other hnew) h'.keeps
    · exact h'.closed other hmore
  ordered := by
    refine List.pairwise_append.2 ⟨h.ordered, h'.ordered, fun a ha b hb hparent => ?_⟩
    -- The parents of what is finished were met, so none of them is new to the rest of the walk.
    exact absurd (h.closed a ha hparent) (h'.fresh b hb)

theorem finish (hdir : dir ∉ w.seen)
    (h : data.Leads { w with seen := dir :: w.seen } (data.parentsOf dir) new w₁) :
    data.Leads w [dir] (new ++ [dir]) { w₁ with stack := w₁.stack ++ [dir] } where
  stack := by rw [h.stack, List.append_assoc]
  mem_seen other := by
    rw [h.mem_seen, List.mem_cons, List.mem_append, List.mem_singleton, or_assoc, or_left_comm,
      or_comm (a := other = dir)]
  nodup := by
    refine List.nodup_append.2 ⟨h.nodup, List.pairwise_singleton _ dir, fun a ha b hb heq => ?_⟩
    rw [List.mem_singleton.1 hb] at heq
    exact h.fresh a ha (List.mem_cons.2 (.inl heq))
  fresh other hother hseen := by
    rcases List.mem_append.1 hother with hnew | hlast
    · exact h.fresh other hnew (List.mem_cons_of_mem dir hseen)
    · exact hdir (List.mem_singleton.1 hlast ▸ hseen)
  met := by
    rw [List.cons_subset]
    exact ⟨h.keeps List.mem_cons_self, List.nil_subset _⟩
  inherited other hother := by
    refine ⟨dir, List.mem_cons_self, ?_⟩
    rcases List.mem_append.1 hother with hnew | hlast
    · obtain ⟨parent, hparent, hinherits⟩ := h.inherited other hnew
      exact .head hparent hinherits
    · rw [List.mem_singleton.1 hlast]
  closed other hother := by
    rcases List.mem_append.1 hother with hnew | hlast
    · exact h.closed other hnew
    · rw [List.mem_singleton.1 hlast]
      exact h.met
  ordered := by
    refine List.pairwise_append.2 ⟨h.ordered, List.pairwise_singleton _ _, fun a ha b hb _ => ?_⟩
    obtain ⟨parent, hparent, hinherits⟩ := h.inherited a ha
    rw [List.mem_singleton.1 hb]
    exact .head hparent hinherits

end Leads

theorem exists_leads (data : Data) :
    (∀ w dir, ∃ new, data.Leads w [dir] new (data.visit w dir).1) ∧
      ∀ w dirs, ∃ new, data.Leads w dirs new (data.visitAll w dirs).1 := by
  apply visit.mutual_induct
  case case1 =>
    intro w dir hdir
    rw [visit_of_mem hdir]
    exact ⟨[], .refl (by simpa using hdir)⟩
  case case2 =>
    intro w dir hdir ih
    obtain ⟨new, h⟩ := ih
    rw [visit_of_not_mem hdir]
    exact ⟨new ++ [dir], h.finish hdir⟩
  case case3 =>
    intro w
    rw [visitAll_nil]
    exact ⟨[], .refl (List.nil_subset _)⟩
  case case4 =>
    intro w dir dirs first ihFirst ihRest _
    obtain ⟨new, h⟩ := ihFirst
    obtain ⟨more, h'⟩ := ihRest
    rw [visitAll_cons]
    exact ⟨new ++ more, h.trans h'⟩

theorem leads_stack (data : Data) (dir : String) :
    data.Leads ⟨[], []⟩ [dir] (data.stack dir) (data.visit ⟨[], []⟩ dir).1 := by
  obtain ⟨new, h⟩ := data.exists_leads.1 ⟨[], []⟩ dir
  have hstack : data.stack dir = new := h.stack
  rwa [hstack]

theorem getLast?_stack (data : Data) (dir : String) : (data.stack dir).getLast? = some dir := by
  rw [stack, visit_of_not_mem (List.not_mem_nil)]
  exact List.getLast?_concat

theorem parentsOf_subset_stack {other : String} (h : other ∈ data.stack dir) :
    data.parentsOf other ⊆ data.stack dir := by
  intro parent hparent
  have hwalk := data.leads_stack dir
  simpa [hwalk.mem_seen] using hwalk.closed other h hparent

theorem mem_stack {other : String} : other ∈ data.stack dir ↔ data.Inherits dir other := by
  constructor
  · intro hother
    obtain ⟨start, hstart, hinherits⟩ := (data.leads_stack dir).inherited other hother
    rwa [List.mem_singleton.1 hstart] at hinherits
  · intro hinherits
    induction hinherits with
    | refl => exact List.mem_of_getLast? (data.getLast?_stack dir)
    | tail _ hparent ih => exact parentsOf_subset_stack ih hparent

theorem mem_before_or_inherits {before after : List String} {other parent : String}
    (h : data.stack dir = before ++ other :: after) (hparent : data.HasParent other parent) :
    parent ∈ before ∨ data.Inherits parent other := by
  have hmem := parentsOf_subset_stack (h ▸ List.mem_append_right _ List.mem_cons_self) hparent
  have hordered := (data.leads_stack dir).ordered
  rw [h, List.mem_append, List.mem_cons] at hmem
  rw [h] at hordered
  rcases hmem with hbefore | rfl | hafter
  · exact .inl hbefore
  · exact .inr .refl
  · have hlater := (List.pairwise_cons.1 (List.pairwise_append.1 hordered).2.1).1
    exact .inr (hlater parent hafter hparent)

/--
A profile inherits from what can be reached through parents, which stands in its stack once and
before what it is a parent of, as far as there is no way around in a cycle.
-/
theorem stack_inherits (data : Data) (dir : String) :
    (data.stack dir).Nodup ∧
      (∀ other, other ∈ data.stack dir ↔ data.Inherits dir other) ∧
      (data.stack dir).getLast? = some dir ∧
      ((∀ other, data.Inherits dir other → ¬TransGen data.HasParent other other) →
        ∀ before other after, data.stack dir = before ++ other :: after →
          ∀ parent ∈ data.parentsOf other, parent ∈ before) := by
  refine ⟨(data.leads_stack dir).nodup, fun other => mem_stack, data.getLast?_stack dir, ?_⟩
  intro hacyclic before other after hstack parent hparent
  refine (mem_before_or_inherits hstack hparent).resolve_right fun hback => ?_
  have hother : other ∈ data.stack dir := hstack ▸ List.mem_append_right _ List.mem_cons_self
  exact hacyclic other (mem_stack.1 hother) (.head' hparent hback)

end EbuildAudit.Profile.Data
