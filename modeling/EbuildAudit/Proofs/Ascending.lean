import EbuildAudit.Ascending
import Mathlib.Data.String.Basic

namespace EbuildAudit.Ascending

def Sorted (entries : List (String × α)) : Prop :=
  (entries.map (·.1)).Pairwise (· < ·)

instance (entries : List (String × α)) : Decidable (Sorted entries) :=
  inferInstanceAs (Decidable ((entries.map (·.1)).Pairwise (· < ·)))

variable {default : α} {f : α → α} {name k : String} {value : α} {entries : List (String × α)}

theorem mem_insert {names : List String} : k ∈ insert name names ↔ k = name ∨ k ∈ names := by
  induction names with
  | nil => simp [insert]
  | cons other names ih =>
    rw [insert]
    split
    case isTrue hname => simp [hname]
    case isFalse =>
      split
      · simp
      · rw [List.mem_cons, ih, List.mem_cons]
        tauto

theorem insert_pairwise {names : List String} (h : names.Pairwise (· < ·)) :
    (insert name names).Pairwise (· < ·) := by
  induction names with
  | nil => exact List.pairwise_singleton _ _
  | cons other names ih =>
    obtain ⟨hother, hnames⟩ := List.pairwise_cons.1 h
    rw [insert]
    split
    case isTrue => exact h
    case isFalse hne =>
      split
      case isTrue hlt =>
        refine List.pairwise_cons.2 ⟨fun k hk => ?_, h⟩
        rcases List.mem_cons.1 hk with rfl | hk
        · exact hlt
        · exact lt_trans hlt (hother k hk)
      case isFalse hnot =>
        refine List.pairwise_cons.2 ⟨fun k hk => ?_, ih hnames⟩
        rcases mem_insert.1 hk with rfl | hk
        · exact lt_of_le_of_ne (not_lt.1 hnot) (Ne.symm hne)
        · exact hother k hk

theorem mem_foldl_insert {names done : List String} :
    k ∈ names.foldl (fun done name => insert name done) done ↔ k ∈ names ∨ k ∈ done := by
  induction names generalizing done with
  | nil => simp
  | cons name names ih =>
    rw [List.foldl_cons, ih, mem_insert, List.mem_cons]
    tauto

theorem mem_ofList {names : List String} : k ∈ ofList names ↔ k ∈ names := by
  rw [ofList, mem_foldl_insert, or_iff_left List.not_mem_nil]

theorem foldl_insert_pairwise (names : List String) {done : List String}
    (h : done.Pairwise (· < ·)) :
    (names.foldl (fun done name => insert name done) done).Pairwise (· < ·) := by
  induction names generalizing done with
  | nil => exact h
  | cons name names ih => exact ih (insert_pairwise h)

theorem ofList_pairwise (names : List String) : (ofList names).Pairwise (· < ·) :=
  foldl_insert_pairwise names .nil

theorem eq_of_mem_iff {names names' : List String} (h : names.Pairwise (· < ·))
    (h' : names'.Pairwise (· < ·)) (hmem : ∀ k, k ∈ names ↔ k ∈ names') : names = names' := by
  have hperm : names.Perm names' :=
    (List.perm_ext_iff_of_nodup (h.imp ne_of_lt) (h'.imp ne_of_lt)).2 hmem
  exact hperm.eq_of_pairwise (fun _ _ _ _ hlt hgt => absurd hgt (lt_asymm hlt)) h h'

theorem ofList_eq_self {names : List String} (h : names.Pairwise (· < ·)) : ofList names = names :=
  eq_of_mem_iff (ofList_pairwise names) h fun _ => mem_ofList

theorem Sorted.nil : Sorted ([] : List (String × α)) :=
  List.Pairwise.nil

theorem Sorted.nodup (h : Sorted entries) : (entries.map (·.1)).Nodup :=
  h.imp ne_of_lt

theorem mem_names_of_modify (h : k ∈ (modify default f name entries).map (·.1)) :
    k = name ∨ k ∈ entries.map (·.1) := by
  induction entries with
  | nil => simpa [modify] using h
  | cons entry entries ih =>
    obtain ⟨other, a⟩ := entry
    rw [modify] at h
    split at h
    case isTrue hname =>
      subst hname
      exact .inr h
    case isFalse =>
      split at h
      case isTrue => simpa using h
      case isFalse =>
        rcases List.mem_cons.1 h with rfl | h
        · exact .inr List.mem_cons_self
        · exact (ih h).imp_right (List.mem_cons_of_mem _)

theorem modify_sorted (h : Sorted entries) : Sorted (modify default f name entries) := by
  induction entries with
  | nil => exact List.pairwise_singleton _ _
  | cons entry entries ih =>
    obtain ⟨other, a⟩ := entry
    obtain ⟨hother, hentries⟩ := List.pairwise_cons.1 h
    rw [modify]
    split
    case isTrue => exact h
    case isFalse hne =>
      split
      case isTrue hlt =>
        refine List.pairwise_cons.2 ⟨fun k hk => ?_, h⟩
        rcases List.mem_cons.1 hk with rfl | hk
        · exact hlt
        · exact lt_trans hlt (hother k hk)
      case isFalse hnot =>
        refine List.pairwise_cons.2 ⟨fun k hk => ?_, ih hentries⟩
        rcases mem_names_of_modify hk with rfl | hk
        · exact lt_of_le_of_ne (not_lt.1 hnot) (Ne.symm hne)
        · exact hother k hk

theorem lookup_eq_none_of_lt (h : ∀ k ∈ entries.map (·.1), name < k) :
    entries.lookup name = none := by
  rw [List.lookup_eq_none_iff]
  intro entry hentry
  have hlt := h entry.1 (List.mem_map_of_mem hentry)
  simpa using hlt.ne

theorem lookup_modify (default : α) (f : α → α) (name : String) (h : Sorted entries) (k : String) :
    (modify default f name entries).lookup k =
      if k = name then some (f ((entries.lookup name).getD default)) else entries.lookup k := by
  induction entries with
  | nil => by_cases hk : k = name <;> simp [modify, hk]
  | cons entry entries ih =>
    obtain ⟨other, a⟩ := entry
    obtain ⟨hother, hentries⟩ := List.pairwise_cons.1 h
    rw [modify]
    split
    case isTrue hname =>
      subst hname
      by_cases hk : k = name
      · simp [hk]
      · simp [List.lookup_cons, beq_false_of_ne hk, hk]
    case isFalse hne =>
      split
      case isTrue hlt =>
        have hnone : entries.lookup name = none :=
          lookup_eq_none_of_lt fun k hk => lt_trans hlt (hother k hk)
        by_cases hk : k = name
        · simp [hk, List.lookup_cons, beq_false_of_ne hne, hnone]
        · simp [List.lookup_cons, beq_false_of_ne hk, hk]
      case isFalse =>
        by_cases hk : k = other
        · simp [hk, Ne.symm hne]
        · simp [List.lookup_cons, beq_false_of_ne hk, beq_false_of_ne hne, ih hentries]

theorem lookup_set (name : String) (value : α) (entries : List (String × α)) (k : String) :
    (set name value entries).lookup k = if k = name then some value else entries.lookup k := by
  rw [set]
  induction entries with
  | nil => by_cases hk : k = name <;> simp [modify, hk]
  | cons entry entries ih =>
    obtain ⟨other, a⟩ := entry
    rw [modify]
    split
    case isTrue hname =>
      subst hname
      by_cases hk : k = name
      · simp [hk]
      · simp [List.lookup_cons, beq_false_of_ne hk, hk]
    case isFalse hne =>
      split
      case isTrue =>
        by_cases hk : k = name
        · simp [hk]
        · simp [List.lookup_cons, beq_false_of_ne hk, hk]
      case isFalse =>
        by_cases hk : k = other
        · simp [hk, Ne.symm hne]
        · simp [List.lookup_cons, beq_false_of_ne hk, ih]

theorem set_append_of_lt {done : List (String × α)} (h : ∀ k ∈ done.map (·.1), k < name) :
    set name value done = done ++ [(name, value)] := by
  rw [set]
  induction done with
  | nil => rfl
  | cons entry done ih =>
    obtain ⟨other, a⟩ := entry
    rw [List.map_cons, List.forall_mem_cons] at h
    obtain ⟨hother, hdone⟩ := h
    rw [modify, if_neg hother.ne', if_neg (lt_asymm hother), ih hdone, List.cons_append]

theorem foldl_set_append {done : List (String × α)} (h : Sorted (done ++ entries)) :
    entries.foldl (fun done (name, a) => set name a done) done = done ++ entries := by
  induction entries generalizing done with
  | nil => rw [List.foldl_nil, List.append_nil]
  | cons entry entries ih =>
    obtain ⟨name, a⟩ := entry
    have hlt : ∀ k ∈ done.map (·.1), k < name := by
      rw [Sorted, List.map_append, List.pairwise_append] at h
      exact fun k hk => h.2.2 k hk name (List.mem_map_of_mem List.mem_cons_self)
    rw [List.append_cons] at h ⊢
    simp only [List.foldl_cons, set_append_of_lt hlt]
    exact ih h

theorem foldl_set_eq_self (h : Sorted entries) :
    entries.foldl (fun done (name, a) => set name a done) [] = entries := by
  have happend : Sorted ([] ++ entries) := h
  rw [foldl_set_append happend, List.nil_append]

theorem lookup_foldl_push_map {β : Type} (key : β → String) (value : β → α) (found : List β)
    {entries : List (String × List α)} (h : Sorted entries) (name : String) :
    (found.foldl (fun entries b => push (key b) (value b) entries) entries).lookup name =
      if found.any (key · == name) then
        some ((entries.lookup name).getD [] ++ (found.filter (key · == name)).map value)
      else entries.lookup name := by
  induction found generalizing entries with
  | nil => rfl
  | cons b found ih =>
    have hpush : Sorted (push (key b) (value b) entries) := modify_sorted h
    rw [List.foldl_cons, ih hpush, push, lookup_modify [] _ (key b) h]
    by_cases hname : name = key b
    · subst hname
      by_cases hany : found.any (key · == key b) = true
      · simp [hany]
      · have hnone : found.filter (key · == key b) = [] := by simpa using hany
        simp [hany, hnone]
    · have hne : (key b == name) = false := by simpa using Ne.symm hname
      simp [hname, hne]

theorem lookup_foldl_push {β : Type} (key : β → String) (found : List β)
    {entries : List (String × List β)} (h : Sorted entries) (name : String) :
    (found.foldl (fun entries b => push (key b) b entries) entries).lookup name =
      if found.any (key · == name) then
        some ((entries.lookup name).getD [] ++ found.filter (key · == name))
      else entries.lookup name := by
  have hmap := lookup_foldl_push_map key id found h name
  rwa [List.map_id] at hmap

end EbuildAudit.Ascending
