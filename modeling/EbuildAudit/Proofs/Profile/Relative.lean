import EbuildAudit.Profile.Load
import EbuildAudit.Proofs.Path

/-!
Relative paths between profile directories. A component leads down, up or nowhere, and a path that
goes up more often than there are levels to leave has no end. Paths are walked one after the other,
because the text of a directory is read back as the names that it was joined from.
-/

namespace EbuildAudit.Profile

open FileTree (IsName)
open Text

def components (dir : String) : List String :=
  if dir = "" then [] else splitOn '/' dir

/-- How many levels a directory lies below the top. Dots in its own path are names like others. -/
def depth (dir : String) : Nat :=
  (components dir).countP (· ≠ "")

/-- All components are names: none is empty, a dot or two dots. -/
def IsNormal (dir : String) : Prop :=
  ∀ part ∈ components dir, IsName part

instance (dir : String) : Decidable (IsNormal dir) :=
  inferInstanceAs (Decidable (∀ part ∈ components dir, IsName part))

/-- Some beginning goes up more often than there were levels and names on it. -/
def Escapes (levels : Nat) (parts : List String) : Prop :=
  ∃ start, start <+: parts ∧ levels + start.countP (IsName ·) < start.count ".."

def trail (dir : String) : List String :=
  ((components dir).filter (· ≠ "")).reverse

variable {dir rel other part name : String} {parts names names' : List String} {levels : Nat}

theorem components_subset (dir : String) : components dir ⊆ splitOn '/' dir := by
  rw [components]
  split
  · exact List.nil_subset _
  · exact List.Subset.refl _

theorem filter_splitOn (dir : String) :
    (splitOn '/' dir).filter (!·.isEmpty) = (components dir).filter (· ≠ "") := by
  have hnonempty : (fun part : String => !part.isEmpty) = fun part => decide (part ≠ "") := by
    funext part
    by_cases hpart : part = "" <;> simp [hpart]
  rw [hnonempty, components]
  split
  case isTrue htop => rw [htop]; rfl
  case isFalse => rfl

theorem length_trail (dir : String) : (trail dir).length = depth dir := by
  rw [trail, List.length_reverse, depth, List.countP_eq_length_filter]

theorem mem_components_of_mem_trail (h : name ∈ trail dir) : name ∈ components dir :=
  (List.mem_filter.1 (List.mem_reverse.1 h)).1

theorem of_mem_trail (h : name ∈ trail dir) : name ≠ "" ∧ '/' ∉ name.toList := by
  have hname := List.mem_filter.1 (List.mem_reverse.1 h)
  exact ⟨of_decide_eq_true hname.2, not_mem_toList_of_mem_splitOn (components_subset dir hname.1)⟩

theorem components_joinWith (h : ∀ name ∈ names, name ≠ "" ∧ '/' ∉ name.toList) :
    components (joinWith "/" names) = names := by
  cases names with
  | nil => rfl
  | cons name rest =>
    have hsplit : splitOn '/' (joinWith "/" (name :: rest)) = name :: rest :=
      splitOn_joinWith rfl (fun part hpart => (h part hpart).2) (List.cons_ne_nil _ _)
    have hne : joinWith "/" (name :: rest) ≠ "" := by
      intro hempty
      have htop : splitOn '/' "" = [""] := rfl
      rw [hempty, htop] at hsplit
      exact (h name List.mem_cons_self).1 (List.cons.inj hsplit).1.symm
    rw [components, if_neg hne, hsplit]

theorem trail_joinWith (h : ∀ name ∈ names, name ≠ "" ∧ '/' ∉ name.toList) :
    trail (joinWith "/" names.reverse) = names := by
  have hreverse : ∀ name ∈ names.reverse, name ≠ "" ∧ '/' ∉ name.toList := by simpa using h
  rw [trail, components_joinWith hreverse, List.filter_eq_self.2, List.reverse_reverse]
  intro name hname
  exact decide_eq_true (hreverse name hname).1

theorem step_cases (names : List String) (h : '/' ∉ part.toList) :
    ¬IsName part ∧ part ≠ ".." ∧ step names part = some names ∨
      part = ".." ∧ step names part = names.tail? ∨
      IsName part ∧ part ≠ ".." ∧ step names part = some (part :: names) := by
  simp only [step.eq_def, Bool.or_eq_true, decide_eq_true_eq]
  by_cases hstay : part = "" ∨ part = "."
  · refine .inl ⟨?_, ?_, if_pos hstay⟩
    · exact fun hname => hstay.elim hname.nonempty hname.noDot
    · rintro rfl
      simp at hstay
  · rw [if_neg hstay]
    rw [not_or] at hstay
    by_cases hup : part = ".."
    · refine .inr (.inl ⟨hup, ?_⟩)
      rw [if_pos hup]
      cases names <;> rfl
    · exact .inr (.inr ⟨⟨hstay.1, h, hstay.2, hup⟩, hup, if_neg hup⟩)

theorem not_escapes_nil : ¬Escapes levels [] := by
  rintro ⟨start, hstart, hup⟩
  rw [List.prefix_nil.1 hstart] at hup
  exact Nat.not_lt_zero _ hup

theorem escapes_cons : Escapes levels (part :: parts) ↔ ∃ start, start <+: parts ∧
    levels + (part :: start).countP (IsName ·) < (part :: start).count ".." := by
  constructor
  · rintro ⟨start, hstart, hup⟩
    rcases List.prefix_cons_iff.1 hstart with rfl | ⟨rest, rfl, hrest⟩
    · exact absurd hup (Nat.not_lt_zero _)
    · exact ⟨rest, hrest, hup⟩
  · rintro ⟨rest, hrest, hup⟩
    exact ⟨part :: rest, List.cons_prefix_cons.2 ⟨rfl, hrest⟩, hup⟩

theorem escapes_stay (hname : ¬IsName part) (hup : part ≠ "..") :
    Escapes levels (part :: parts) ↔ Escapes levels parts := by
  rw [escapes_cons, Escapes]
  simp only [List.countP_cons, List.count_cons, hname, hup, decide_false, beq_iff_eq,
    Bool.false_eq_true, if_false, Nat.add_zero]

theorem escapes_up : Escapes (levels + 1) (".." :: parts) ↔ Escapes levels parts := by
  have hname : ¬IsName ".." := by decide
  rw [escapes_cons, Escapes]
  simp only [List.countP_cons, List.count_cons, hname, decide_false, beq_self_eq_true,
    Bool.false_eq_true, if_false, if_true, Nat.add_zero, Nat.add_right_comm levels 1,
    Nat.add_lt_add_iff_right]

theorem escapes_down (hname : IsName part) :
    Escapes levels (part :: parts) ↔ Escapes (levels + 1) parts := by
  rw [escapes_cons, Escapes]
  simp only [List.countP_cons, List.count_cons, hname, hname.noDots, decide_true, beq_iff_eq,
    if_false, if_true, Nat.add_zero, Nat.add_right_comm levels 1, ← Nat.add_assoc]

theorem escapes_top : Escapes 0 (".." :: parts) :=
  ⟨[".."], List.cons_prefix_cons.2 ⟨rfl, List.nil_prefix⟩, by decide⟩

theorem walk_eq_none_iff (h : ∀ part ∈ parts, '/' ∉ part.toList) :
    parts.foldlM step names = none ↔ Escapes names.length parts := by
  -- A component changes the levels to leave just as it changes the balance of the rest of the path.
  induction parts generalizing names with
  | nil => exact iff_of_false nofun not_escapes_nil
  | cons part parts ih =>
    rw [List.forall_mem_cons] at h
    rw [List.foldlM_cons]
    rcases step_cases names h.1 with ⟨hname, hup, hstep⟩ | ⟨rfl, hstep⟩ | ⟨hname, hup, hstep⟩
    · rw [hstep, escapes_stay hname hup]
      exact ih h.2
    · cases names with
      | nil =>
        rw [hstep]
        exact iff_of_true rfl escapes_top
      | cons name names =>
        rw [hstep, List.length_cons, escapes_up]
        exact ih h.2
    · rw [hstep, escapes_down hname, ← List.length_cons]
      exact ih h.2

theorem mem_of_step (h : '/' ∉ part.toList) (hstep : step names part = some names')
    (hmem : name ∈ names') : name ∈ names ∨ IsName name := by
  rcases step_cases names h with ⟨-, -, heq⟩ | ⟨-, heq⟩ | ⟨hname, -, heq⟩
  · rw [heq] at hstep
    cases hstep
    exact .inl hmem
  · rw [heq] at hstep
    cases names with
    | nil => cases hstep
    | cons first names =>
      cases hstep
      exact .inl (List.mem_cons_of_mem first hmem)
  · rw [heq] at hstep
    cases hstep
    rcases List.mem_cons.1 hmem with rfl | hmem
    · exact .inr hname
    · exact .inl hmem

theorem mem_of_walk (h : ∀ part ∈ parts, '/' ∉ part.toList)
    (hwalk : parts.foldlM step names = some names') (hmem : name ∈ names') :
    name ∈ names ∨ IsName name := by
  induction parts generalizing names with
  | nil =>
    cases hwalk
    exact .inl hmem
  | cons part parts ih =>
    rw [List.forall_mem_cons] at h
    rw [List.foldlM_cons, Option.bind_eq_bind, Option.bind_eq_some_iff] at hwalk
    obtain ⟨next, hstep, hrest⟩ := hwalk
    exact (ih h.2 hrest).elim (mem_of_step h.1 hstep) .inr

theorem resolveRelative_eq (dir rel : String) : resolveRelative dir rel =
    ((splitOn '/' rel).foldlM step (trail dir)).map fun names => joinWith "/" names.reverse := by
  rw [resolveRelative, filter_splitOn, ← trail]
  cases (splitOn '/' rel).foldlM step (trail dir) <;> rfl

theorem resolveRelative_eq_none_iff :
    resolveRelative dir rel = none ↔ Escapes (depth dir) (splitOn '/' rel) := by
  rw [resolveRelative_eq, Option.map_eq_none_iff,
    walk_eq_none_iff fun part => not_mem_toList_of_mem_splitOn, length_trail]

theorem exists_walk (h : resolveRelative dir rel = some other) : ∃ names,
    (splitOn '/' rel).foldlM step (trail dir) = some names ∧ components other = names.reverse ∧
      trail other = names := by
  rw [resolveRelative_eq, Option.map_eq_some_iff] at h
  obtain ⟨names, hwalk, rfl⟩ := h
  have hnames : ∀ name ∈ names, name ≠ "" ∧ '/' ∉ name.toList := by
    intro name hname
    rcases mem_of_walk (fun part => not_mem_toList_of_mem_splitOn) hwalk hname with hname | hname
    · exact of_mem_trail hname
    · exact ⟨hname.nonempty, hname.noSlash⟩
  exact ⟨names, hwalk, components_joinWith (by simpa using hnames), trail_joinWith hnames⟩

theorem map_trail_resolveRelative (dir rel : String) :
    (resolveRelative dir rel).map trail = (splitOn '/' rel).foldlM step (trail dir) := by
  cases h : resolveRelative dir rel with
  | none =>
    rw [resolveRelative_eq, Option.map_eq_none_iff] at h
    rw [h]
    rfl
  | some other =>
    obtain ⟨names, hwalk, -, htrail⟩ := exists_walk h
    rw [hwalk, Option.map_some, htrail]

theorem resolveRelative_slash (dir a b : String) :
    resolveRelative dir (a ++ "/" ++ b) = (resolveRelative dir a).bind (resolveRelative · b) := by
  calc
    resolveRelative dir (a ++ "/" ++ b) =
        (((splitOn '/' a).foldlM step (trail dir)).bind ((splitOn '/' b).foldlM step)).map
          fun names => joinWith "/" names.reverse := by
      rw [resolveRelative_eq, Path.splitOn_slash, List.foldlM_append, Option.bind_eq_bind]
    _ = (((resolveRelative dir a).map trail).bind ((splitOn '/' b).foldlM step)).map
          fun names => joinWith "/" names.reverse := by
      rw [map_trail_resolveRelative]
    _ = (resolveRelative dir a).bind (resolveRelative · b) := by
      cases resolveRelative dir a with
      | none => rfl
      | some other => exact (resolveRelative_eq other b).symm

theorem mem_components_of_resolveRelative (h : resolveRelative dir rel = some other)
    (hpart : part ∈ components other) : part ∈ trail dir ∨ IsName part := by
  obtain ⟨names, hwalk, hcomponents, -⟩ := exists_walk h
  rw [hcomponents, List.mem_reverse] at hpart
  exact mem_of_walk (fun part => not_mem_toList_of_mem_splitOn) hwalk hpart

theorem IsNormal.resolveRelative (hdir : IsNormal dir)
    (h : resolveRelative dir rel = some other) : IsNormal other := by
  intro part hpart
  rcases mem_components_of_resolveRelative h hpart with hpart | hpart
  · exact hdir part (mem_components_of_mem_trail hpart)
  · exact hpart

/--
Relative paths are walked one after the other. One leads nowhere exactly if on the way it goes up
from the top, and from a normal directory it leads to normal directories only.
-/
theorem resolveRelative_composes (dir a b : String) :
    resolveRelative dir (a ++ "/" ++ b) = (resolveRelative dir a).bind (resolveRelative · b) ∧
      (resolveRelative dir a = none ↔ Escapes (depth dir) (splitOn '/' a)) ∧
      (IsNormal dir → ∀ other, resolveRelative dir a = some other → IsNormal other) :=
  ⟨resolveRelative_slash dir a b, resolveRelative_eq_none_iff,
    fun hdir _ hother => hdir.resolveRelative hother⟩

theorem resolveRelative_composes_top :
    IsNormal "default/linux" ∧
      resolveRelative "default/linux" ("../.." ++ "/" ++ "base") = some "base" ∧
      IsNormal "base" ∧
      Escapes (depth "default/linux") (splitOn '/' "../../..") ∧
      resolveRelative "default/linux" "../../.." = none := by
  have hdir : IsNormal "default/linux" := by decide
  have htop : resolveRelative "default/linux" "../.." = some "" := by decide
  have hbase : resolveRelative "default/linux" "../../base" = some "base" := by decide
  have hescapes : Escapes (depth "default/linux") (splitOn '/' "../../..") :=
    ⟨["..", "..", ".."], by decide, by decide⟩
  refine ⟨hdir, ?_, ?_, hescapes, ?_⟩
  · rw [(resolveRelative_composes "default/linux" "../.." "base").1, htop]
    decide
  · exact (resolveRelative_composes "default/linux" "../../base" "").2.2 hdir "base" hbase
  · exact (resolveRelative_composes "default/linux" "../../.." "").2.1.2 hescapes

end EbuildAudit.Profile
