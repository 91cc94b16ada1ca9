import EbuildAudit.Ebuild.Assignment
import EbuildAudit.Proofs.Text.Lines

namespace EbuildAudit.Ebuild

open Text

def IsQuote (quote : Char) : Prop :=
  quote = '"' ∨ quote = '\''

/-- No quote ends the text, and none is hidden by its last character. -/
inductive Enclosed (quote : Char) : List Char → Prop
  | nil : Enclosed quote []
  | plain {c : Char} {cs : List Char} :
    c ≠ quote → ¬(quote = '"' ∧ c = '\\') → Enclosed quote cs → Enclosed quote (c :: cs)
  | escaped {c : Char} {cs : List Char} :
    quote = '"' → Enclosed quote cs → Enclosed quote ('\\' :: c :: cs)

variable {quote c : Char} {cs line text body rest before : List Char}

theorem IsQuote.ne (h : IsQuote quote) : quote ≠ '\\' ∧ quote ≠ '\n' ∧ quote ≠ '\r' := by
  rcases h with rfl | rfl <;> decide

theorem beforeClosing?_plain (hc : c ≠ quote) (hescape : ¬(quote = '"' ∧ c = '\\')) :
    beforeClosing? quote (c :: cs) = (beforeClosing? quote cs).map (c :: ·) := by
  cases cs with
  | nil => exact if_neg hc
  | cons d cs => rw [beforeClosing?, if_neg hescape, if_neg hc]

theorem beforeClosing?_quote (h : IsQuote quote) (cs : List Char) :
    beforeClosing? quote (quote :: cs) = some [] := by
  cases cs with
  | nil => exact if_pos rfl
  | cons d cs => rw [beforeClosing?, if_neg fun hescape => h.ne.1 hescape.2, if_pos rfl]

theorem beforeClosing?_escaped (c : Char) (cs : List Char) :
    beforeClosing? '"' ('\\' :: c :: cs) = (beforeClosing? '"' cs).map ('\\' :: c :: ·) := by
  rw [beforeClosing?, if_pos ⟨rfl, rfl⟩]

namespace Enclosed

theorem beforeClosing?_append (h : Enclosed quote body) (hquote : IsQuote quote) :
    beforeClosing? quote (body ++ quote :: rest) = some body := by
  induction h with
  | nil => exact beforeClosing?_quote hquote rest
  | plain hc hescape _ ih => rw [List.cons_append, beforeClosing?_plain hc hescape, ih]; rfl
  | escaped hdouble _ ih =>
    subst hdouble
    rw [List.cons_append, List.cons_append, beforeClosing?_escaped, ih]
    rfl

theorem beforeClosing?_eq_none (h : Enclosed quote text) : beforeClosing? quote text = none := by
  induction h with
  | nil => rfl
  | plain hc hescape _ ih => rw [beforeClosing?_plain hc hescape, ih]; rfl
  | escaped hdouble _ ih =>
    subst hdouble
    rw [beforeClosing?_escaped, ih]
    rfl

theorem after_line (h : Enclosed quote (line ++ '\n' :: rest)) : Enclosed quote rest := by
  generalize htext : line ++ '\n' :: rest = text at h
  induction h generalizing line with
  | nil => cases line <;> cases htext
  | plain _ _ h ih =>
    cases line with
    | nil =>
      cases htext
      exact h
    | cons d line => exact ih (List.cons.inj htext).2
  | escaped _ h ih =>
    match line with
    | [] => exact absurd (List.cons.inj htext).1 (by decide)
    | [d] =>
      cases htext
      exact h
    | d :: e :: line => exact ih (List.cons.inj (List.cons.inj htext).2).2

theorem concat (h : Enclosed quote text) (hc : c ≠ quote) (hescape : c ≠ '\\') :
    Enclosed quote (text ++ [c]) := by
  induction h with
  | nil => exact .plain hc (fun h => hescape h.2) .nil
  | plain hd hplain _ ih => exact .plain hd hplain ih
  | escaped hdouble _ ih => exact .escaped hdouble ih

end Enclosed

theorem of_beforeClosing? (h : beforeClosing? quote cs = some before) :
    Enclosed quote before ∧ ∃ rest, cs = before ++ quote :: rest := by
  induction cs using beforeClosing?.induct quote generalizing before with
  | case1 => cases h
  | case2 =>
    rw [beforeClosing?, if_pos rfl] at h
    cases h
    exact ⟨.nil, [], rfl⟩
  | case3 c hc =>
    rw [beforeClosing?, if_neg hc] at h
    cases h
  | case4 c d cs hescape ih =>
    rw [beforeClosing?, if_pos hescape] at h
    obtain ⟨before, hbefore, rfl⟩ := Option.map_eq_some_iff.1 h
    obtain ⟨henclosed, rest, rfl⟩ := ih hbefore
    rw [hescape.2]
    exact ⟨.escaped hescape.1 henclosed, rest, rfl⟩
  | case5 d cs hescape =>
    rw [beforeClosing?, if_neg hescape, if_pos rfl] at h
    cases h
    exact ⟨.nil, d :: cs, rfl⟩
  | case6 c d cs hescape hc ih =>
    rw [beforeClosing?, if_neg hescape, if_neg hc] at h
    obtain ⟨before, hbefore, rfl⟩ := Option.map_eq_some_iff.1 h
    obtain ⟨henclosed, rest, heq⟩ := ih hbefore
    exact ⟨.plain hc hescape henclosed, rest, congrArg (c :: ·) heq⟩

/-- A text is enclosed exactly if the first quote that ends it is the one after it. -/
theorem enclosed_iff (hquote : IsQuote quote) :
    Enclosed quote body ↔ beforeClosing? quote (body ++ [quote]) = some body :=
  ⟨fun h => h.beforeClosing?_append hquote, fun h => (of_beforeClosing? h).1⟩

theorem beforeClosing?_eq_none_of_initial (hquote : IsQuote quote)
    (h : beforeClosing? quote text = none) (hline : line <+: text) :
    beforeClosing? quote line = none := by
  obtain ⟨rest, rfl⟩ := hline
  refine Option.eq_none_iff_forall_ne_some.2 fun before hbefore => ?_
  obtain ⟨henclosed, after, rfl⟩ := of_beforeClosing? hbefore
  rw [List.append_assoc, List.cons_append, henclosed.beforeClosing?_append hquote] at h
  cases h

variable {o : OpenValue} {number : ℕ} {chunk : List Char} {lines : List (List Char)}

theorem readLines_open (h : beforeClosing? o.quote line = none) :
    readLines number (some o) (line :: lines) =
      readLines (number + 1) (some { o with collected := o.collected ++ line ++ ['\n'] }) lines := by
  rw [readLines, readLines.continueValue, h]

theorem readLines_close {last : List Char} (h : beforeClosing? o.quote line = some last) :
    readLines number (some o) (line :: lines) = do
      return o.finish last :: (← readLines (number + 1) none lines) := by
  rw [readLines, readLines.continueValue, h]

theorem readLines_unclosed (hquote : IsQuote o.quote) (h : Enclosed o.quote text) :
    readLines number (some o) (lineLists text) = .error (String.ofList o.name) := by
  induction text using line_induction generalizing o number with
  | last line hline =>
    rw [lineLists_line hline]
    split
    · rw [readLines]
    · rw [readLines_open h.beforeClosing?_eq_none, readLines]
  | next line rest hline ih =>
    have hopen : beforeClosing? o.quote (dropReturn line) = none :=
      beforeClosing?_eq_none_of_initial hquote h.beforeClosing?_eq_none
        ((dropReturn_initial line).trans (List.prefix_append _ _))
    rw [lineLists_append hline, readLines_open hopen]
    exact ih hquote h.after_line

theorem readLines_closed (hquote : IsQuote o.quote) (h : Enclosed o.quote body)
    (hreturn : ¬['\r', '\n'] <:+: body) :
    readLines number (some o) (lineLists (body ++ o.quote :: '\n' :: rest)) = do
      return o.finish body :: (← readLines (number + 1 + body.count '\n') none (lineLists rest)) := by
  induction body using line_induction generalizing o number with
  | last line hline =>
    have hlast : (line ++ [o.quote]).getLast? ≠ some '\r' := by
      simpa using hquote.ne.2.2
    rw [← List.singleton_append, ← List.append_assoc,
      lineLists_append (by simpa [hline] using hquote.ne.2.1.symm), dropReturn_eq_self hlast,
      readLines_close (h.beforeClosing?_append hquote), List.count_eq_zero.2 hline]
  | next line rest' hline ih =>
    have hlast : line.getLast? ≠ some '\r' := by
      intro hlast
      obtain ⟨front, rfl⟩ := List.getLast?_eq_some_iff.1 hlast
      exact hreturn ⟨front, rest', by simp⟩
    have hrest : ¬['\r', '\n'] <:+: rest' :=
      fun hpair => hreturn (hpair.trans ⟨line ++ ['\n'], [], by simp⟩)
    have hopen : beforeClosing? o.quote line = none :=
      beforeClosing?_eq_none_of_initial hquote h.beforeClosing?_eq_none (List.prefix_append _ _)
    rw [List.append_assoc, List.cons_append, lineLists_append hline, dropReturn_eq_self hlast,
      readLines_open hopen]
    have hread := @ih { o with collected := o.collected ++ line ++ ['\n'] } (number + 1) hquote
      h.after_line hrest
    have hcount : (line ++ '\n' :: rest').count '\n' = rest'.count '\n' + 1 := by
      rw [List.count_append, List.count_eq_zero.2 hline, List.count_cons_self, Nat.zero_add]
    have hfinish : o.finish (line ++ '\n' :: rest') =
        OpenValue.finish { o with collected := o.collected ++ line ++ ['\n'] } rest' := by
      simp [OpenValue.finish]
    rw [hread, hcount, hfinish, Nat.add_right_comm, Nat.add_assoc _ _ 1]

end EbuildAudit.Ebuild
