import EbuildAudit.Proofs.Json.RoundTrip

namespace EbuildAudit.Json

def Visible (cs : List Char) : Prop :=
  ∀ c ∈ cs, 0x20 ≤ c.toNat

instance (cs : List Char) : Decidable (Visible cs) :=
  List.decidableBAll (fun c : Char => 0x20 ≤ c.toNat) cs

variable {cs cs' digits rest : List Char} {c : Char} {j : Json} {items : List Json}
  {fields : List (String × Json)}

theorem Visible.nil : Visible [] :=
  nofun

theorem visible_cons : Visible (c :: cs) ↔ 0x20 ≤ c.toNat ∧ Visible cs :=
  List.forall_mem_cons

theorem visible_append : Visible (cs ++ cs') ↔ Visible cs ∧ Visible cs' :=
  List.forall_mem_append

theorem Visible.cons (hc : 0x20 ≤ c.toNat) (hcs : Visible cs) : Visible (c :: cs) :=
  visible_cons.2 ⟨hc, hcs⟩

theorem Visible.append (hcs : Visible cs) (hcs' : Visible cs') : Visible (cs ++ cs') :=
  visible_append.2 ⟨hcs, hcs'⟩

theorem Visible.newline_not_mem (h : Visible cs) : '\n' ∉ cs := by
  intro hmem
  exact absurd (h _ hmem) (by decide)

theorem visible_digits (h : ∀ c ∈ cs, c.isDigit = true) : Visible cs := by
  intro c hc
  have hdigit := h c hc
  simp only [Char.isDigit, Bool.and_eq_true, decide_eq_true_eq, UInt32.le_iff_toNat_le] at hdigit
  exact Nat.le_trans (by decide) hdigit.1

theorem visible_toDigits (n : Nat) : Visible (Nat.toDigits 10 n) :=
  visible_digits (isDigit_toDigits n)

theorem visible_int (n : Int) : Visible (toString n).toList := by
  cases n with
  | ofNat n =>
    rw [toList_toString_ofNat]
    exact visible_toDigits n
  | negSucc n =>
    rw [toList_toString_negSucc]
    exact .cons (by decide) (visible_toDigits _)

theorem visible_escapeChar (c : Char) : Visible (escapeChar c) := by
  have hhex : ∀ n < 0x20, Visible ['\\', 'u', '0', '0', hexDigit (n / 16), hexDigit (n % 16)] := by
    decide
  rw [escapeChar.eq_def]
  split
  case h_8 =>
    split
    case isTrue h => exact hhex _ h
    case isFalse h => exact .cons (Nat.le_of_not_lt h) .nil
  all_goals decide

theorem visible_printString (s : String) : Visible (printString s) := by
  refine .cons (by decide) (.append ?_ (.cons (by decide) .nil))
  intro c hc
  obtain ⟨d, -, hd⟩ := List.mem_flatMap.1 hc
  exact visible_escapeChar d c hd

section

variable {taken : List Char}

theorem visible_readDigits (h : readDigits cs = some (digits, rest)) : Visible digits := by
  simp only [readDigits, Option.ite_none_left_eq_some, Option.some.injEq, Prod.mk.injEq] at h
  obtain ⟨-, rfl, -⟩ := h
  exact visible_digits (List.all_eq_true.1 List.all_takeWhile)

theorem visible_readDigits_map {f : List Char → List Char}
    (hf : ∀ digits, Visible digits → Visible (f digits))
    (h : ((readDigits cs).map fun (digits, rest) => (f digits, rest)) = some (taken, rest)) :
    Visible taken := by
  obtain ⟨⟨digits, left⟩, hdigits, heq⟩ := Option.map_eq_some_iff.1 h
  cases heq
  exact hf digits (visible_readDigits hdigits)

theorem visible_readFraction (h : readFraction cs = some (taken, rest)) : Visible taken := by
  rw [readFraction.eq_def] at h
  split at h
  case h_1 => exact visible_readDigits_map (fun _ => .cons (by decide)) h
  case h_2 =>
    cases h
    exact .nil

theorem visible_readExponent (h : readExponent cs = some (taken, rest)) : Visible taken := by
  have hmark : 0x20 ≤ 'e'.toNat := by decide
  rw [readExponent.eq_def] at h
  split at h
  case h_1 =>
    split at h
    case isTrue =>
      split at h
      case h_2 => exact visible_readDigits_map (fun _ hd => .cons hmark (.cons (by decide) hd)) h
      all_goals exact visible_readDigits_map (fun _ => .cons hmark) h
    case isFalse =>
      cases h
      exact .nil
  case h_2 =>
    cases h
    exact .nil

theorem written_of_ite {p : Prop} [Decidable p] {n : Int} {found written : String}
    (h : (if p then some (int n, cs) else some (real found, cs)) = some (real written, rest)) :
    written = found := by
  split at h
  · cases h
  · cases h
    rfl

theorem visible_readUnsigned {negative : Bool} {written : String}
    (h : readUnsigned negative cs = some (.real written, rest)) : Visible written.toList := by
  obtain ⟨⟨digits, afterDigits⟩, hdigits, h⟩ := Option.bind_eq_some_iff.1 h
  simp only at h
  split at h
  case isTrue => cases h
  case isFalse =>
    obtain ⟨⟨fraction, afterFraction⟩, hfraction, h⟩ := Option.bind_eq_some_iff.1 h
    obtain ⟨⟨exponent, afterExponent⟩, hexponent, h⟩ := Option.bind_eq_some_iff.1 h
    have hwritten : Visible (digits ++ fraction ++ exponent) :=
      ((visible_readDigits hdigits).append (visible_readFraction hfraction)).append
        (visible_readExponent hexponent)
    rw [written_of_ite h, String.toList_ofList]
    split
    · exact .cons (by decide) hwritten
    · exact hwritten

theorem visible_readNumber {written : String} (h : readNumber cs = some (.real written, rest)) :
    Visible written.toList := by
  rw [readNumber.eq_def] at h
  split at h
  all_goals exact visible_readUnsigned h

end

mutual

theorem Proper.visible (j : Json) (hj : Proper j) : Visible j.printChars := by
  cases hj with
  | null =>
    rw [printChars]
    decide
  | bool b =>
    cases b <;> decide
  | int hn => exact visible_int _
  | real hwritten =>
    rw [printChars]
    exact visible_readNumber hwritten
  | str s => exact visible_printString s
  | @arr items hitems =>
    rw [printChars]
    exact .append (.cons (by decide) (visible_printItems items hitems)) (.cons (by decide) .nil)
  | @obj fields hnames hfields =>
    rw [printChars]
    exact .append (.cons (by decide) (visible_printFields fields hfields)) (.cons (by decide) .nil)

theorem visible_printItems (items : List Json) (hitems : ∀ item ∈ items, Proper item) :
    Visible (printItems items) := by
  match items with
  | [] => exact .nil
  | j :: items =>
    obtain ⟨hj, hitems⟩ := List.forall_mem_cons.1 hitems
    have hrest := visible_printItems items hitems
    rw [printItems_cons]
    refine .append (Proper.visible j hj) ?_
    cases items with
    | nil => exact .nil
    | cons => exact .cons (by decide) hrest

theorem visible_printFields (fields : List (String × Json))
    (hfields : ∀ field ∈ fields, Proper field.2) : Visible (printFields fields) := by
  match fields with
  | [] => exact .nil
  | (name, j) :: fields =>
    obtain ⟨hj, hfields⟩ := List.forall_mem_cons.1 hfields
    have hrest := visible_printFields fields hfields
    have hname := visible_printString name
    simp only [printString, List.cons_append, visible_cons, visible_append] at hname
    rw [printFields_cons]
    refine .cons (by decide) (hname.2.1.append (.cons (by decide) (.cons (by decide)
      (.append (Proper.visible j hj) ?_))))
    cases fields with
    | nil => exact .nil
    | cons => exact .cons (by decide) hrest

end

end EbuildAudit.Json
