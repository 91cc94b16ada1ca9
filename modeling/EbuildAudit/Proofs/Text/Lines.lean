import EbuildAudit.Proofs.Text.Pieces
import EbuildAudit.Text.Basic

namespace EbuildAudit.Text

variable {c : Char} {cs line text chunk start rest : List Char} {lines : List (List Char)}

@[elab_as_elim]
theorem line_induction {motive : List Char → Prop} (last : ∀ line, '\n' ∉ line → motive line)
    (next : ∀ line rest, '\n' ∉ line → motive rest → motive (line ++ '\n' :: rest))
    (cs : List Char) : motive cs := by
  cases hcut : cutAt? ['\n'] cs with
  | none => exact last cs (cutAt?_singleton_eq_none.1 hcut)
  | some parts =>
    obtain ⟨line, rest⟩ := parts
    obtain ⟨hcs, hline⟩ := cutAt?_eq_some (List.cons_ne_nil _ _) hcut
    have hshorter : rest.length < cs.length := by
      rw [hcs, List.length_append, List.length_append, List.length_singleton]
      omega
    rw [hcs]
    exact next line rest (cutAt?_singleton_eq_none.1 hline) (line_induction last next rest)
termination_by cs.length

theorem dropReturn_initial (line : List Char) : dropReturn line <+: line := by
  rw [dropReturn]
  split
  · exact List.dropLast_prefix line
  · exact List.prefix_rfl

theorem dropReturn_eq_self (h : line.getLast? ≠ some '\r') : dropReturn line = line :=
  if_neg h

theorem dropReturn_append (h : start.getLast? ≠ some '\r') :
    dropReturn (start ++ line) = start ++ dropReturn line := by
  by_cases hne : line = []
  · rw [hne, List.append_nil, dropReturn_eq_self h]
    exact (List.append_nil _).symm
  · rw [dropReturn, dropReturn, List.getLast?_append_of_ne_nil _ hne,
      List.dropLast_append_of_ne_nil hne]
    split <;> rfl

theorem lineLists_line (h : '\n' ∉ line) : lineLists line = if line = [] then [] else [line] := by
  rw [lineLists, List.splitOn_eq_singleton h]
  cases line <;> rfl

theorem lineLists_append (h : '\n' ∉ line) :
    lineLists (line ++ '\n' :: rest) = dropReturn line :: lineLists rest := by
  have hne := List.splitOn_ne_nil '\n' rest
  rw [lineLists, List.splitOn_append_cons_self, List.splitOn_eq_singleton h, List.singleton_append,
    List.dropLast_cons_of_ne_nil hne, List.getLast?_cons_of_ne_nil hne]
  rfl

theorem lineLists_concat (hlast : text.getLast? = some c) (hfeed : c ≠ '\n') (hreturn : c ≠ '\r') :
    lineLists (text ++ ['\n']) = lineLists text := by
  induction text using line_induction with
  | last line hline =>
    have hne : line ≠ [] := by
      rintro rfl
      cases hlast
    rw [lineLists_append hline, lineLists_line hline, if_neg hne, dropReturn_eq_self]
    · rfl
    · simpa [hlast] using hreturn
  | next line rest hline ih =>
    have hrest : rest ≠ [] := by
      rintro rfl
      rw [List.getLast?_concat] at hlast
      exact hfeed (Option.some_inj.1 hlast).symm
    rw [List.getLast?_append_of_ne_nil _ (List.cons_ne_nil _ _),
      List.getLast?_cons_of_ne_nil hrest] at hlast
    rw [List.append_assoc, List.cons_append, lineLists_append hline, lineLists_append hline,
      ih hlast]

theorem lineLists_start (hne : start ≠ []) (hfeed : '\n' ∉ start)
    (hreturn : start.getLast? ≠ some '\r') (text : List Char) : ∃ chunk lines,
      lineLists (start ++ text) = (start ++ chunk) :: lines ∧
      (lineLists text = chunk :: lines ∨ text = [] ∧ chunk = [] ∧ lines = []) := by
  induction text using line_induction with
  | last line hline =>
    refine ⟨line, [], ?_, ?_⟩
    · rw [lineLists_line (by simp [hfeed, hline]), if_neg (by simp [hne])]
    · rw [lineLists_line hline]
      by_cases hempty : line = []
      · exact .inr ⟨hempty, hempty, rfl⟩
      · exact .inl (if_neg hempty)
  | next line rest hline _ =>
    refine ⟨dropReturn line, lineLists rest, ?_, .inl (lineLists_append hline)⟩
    rw [← List.append_assoc, lineLists_append (by simp [hfeed, hline]), dropReturn_append hreturn]

end EbuildAudit.Text
