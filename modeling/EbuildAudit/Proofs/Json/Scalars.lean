import EbuildAudit.Json.Basic
import EbuildAudit.Json.Parser
import Mathlib.Data.List.Basic

namespace EbuildAudit.Json

open Text

variable {s : List Char} {cs rest digits : List Char} {c : Char} {n : Nat}

theorem hexCode?_control : ∀ n < 0x20,
    hexCode? ['0', '0', hexDigit (n / 16), hexDigit (n % 16)] = some n := by
  decide

theorem readString_control (h : c.toNat < 0x20) :
    readString ('\\' :: 'u' :: '0' :: '0' :: hexDigit (c.toNat / 16) :: hexDigit (c.toNat % 16)
      :: rest) = (readString rest).map fun (s, rest) => (c :: s, rest) := by
  have hcode := hexCode?_control c.toNat h
  have hhigh : isHighSurrogate c.toNat = false := by
    simp only [isHighSurrogate, Bool.and_eq_false_iff, decide_eq_false_iff_not]
    omega
  have hlow : isLowSurrogate c.toNat = false := by
    simp only [isLowSurrogate, Bool.and_eq_false_iff, decide_eq_false_iff_not]
    omega
  -- an escape that follows might have been the other half of a pair
  rw [readString.eq_def]
  simp only
  split
  case h_1 heq => cases heq
  case h_2 heq => cases heq
  case h_3 heq =>
    cases heq
    rw [hcode]
    simp only [Option.bind_eq_bind, Option.bind_some, hhigh, hlow, Char.ofNat_toNat,
      Bool.false_eq_true, if_false]
    exact Option.map_eq_bind.symm
  case h_4 heq =>
    cases heq
    rw [hcode]
    simp only [Option.bind_eq_bind, Option.bind_some, hhigh, hlow, Char.ofNat_toNat, Bool.or_self,
      Bool.false_eq_true, if_false]
    exact Option.map_eq_bind.symm
  case h_5 hnot heq =>
    cases heq
    exact absurd rfl (hnot _ _ _ _ _ rfl)
  case h_6 hnot heq =>
    cases heq
    exact absurd rfl (hnot _ _ rfl)

theorem readString_escape {e : Char} (hu : c ≠ 'u') (h : escaped? c = some e) :
    readString ('\\' :: c :: rest) = (readString rest).map fun (s, rest) => (e :: s, rest) := by
  rw [readString.eq_5 c rest (fun _ _ _ _ _ _ _ _ _ hc => absurd hc hu)
    (fun _ _ _ _ _ hc => absurd hc hu), h]
  cases readString rest <;> rfl

theorem readString_plain (hquote : c ≠ '"') (hslash : c ≠ '\\') (h : ¬c.toNat < 0x20) :
    readString (c :: rest) = (readString rest).map fun (s, rest) => (c :: s, rest) := by
  rw [readString.eq_6 c rest hquote (fun _ _ _ _ _ _ _ _ _ hc => absurd hc hslash)
    (fun _ _ _ _ _ hc => absurd hc hslash) (fun _ _ hc => absurd hc hslash)]
  rw [if_neg (by simp [h, hslash])]
  cases readString rest <;> rfl

theorem readString_escapeChar (c : Char) (rest : List Char) :
    readString (escapeChar c ++ rest) =
      (readString rest).map fun (s, rest) => (c :: s, rest) := by
  rw [escapeChar.eq_def]
  split
  case h_8 hquote hslash _ _ _ _ _ =>
    split
    case isTrue h => exact readString_control h
    case isFalse h => exact readString_plain hquote hslash h
  all_goals exact readString_escape (by decide) rfl

theorem readString_escaped (cs rest : List Char) :
    readString (cs.flatMap escapeChar ++ '"' :: rest) = some (cs, rest) := by
  induction cs with
  | nil => rfl
  | cons c cs ih =>
    rw [List.flatMap_cons, List.append_assoc, readString_escapeChar, ih]
    rfl

theorem readString_printString (s : String) (rest : List Char) :
    readString (s.toList.flatMap escapeChar ++ '"' :: rest) = some (s.toList, rest) :=
  readString_escaped s.toList rest

def Ends (rest : List Char) : Prop :=
  ∀ c ∈ rest.head?, c = ',' ∨ c = ']' ∨ c = '\x7d'

theorem Ends.nil : Ends [] :=
  nofun

theorem Ends.cons (h : c = ',' ∨ c = ']' ∨ c = '\x7d') : Ends (c :: rest) := by
  rintro d hd
  cases hd
  exact h

theorem readDigits_append (hne : digits ≠ []) (hdigits : ∀ c ∈ digits, c.isDigit = true)
    (hrest : ∀ c ∈ rest.head?, c.isDigit = false) :
    readDigits (digits ++ rest) = some (digits, rest) := by
  have hstop : rest.takeWhile Char.isDigit = [] ∧ rest.dropWhile Char.isDigit = rest := by
    cases rest with
    | nil => exact ⟨rfl, rfl⟩
    | cons c rest =>
      have hc := hrest c rfl
      simp [hc]
  rw [readDigits, List.takeWhile_append_of_pos hdigits, List.dropWhile_append_of_pos hdigits,
    hstop.1, hstop.2, List.append_nil]
  simp [hne]

theorem Ends.isDigit (h : Ends rest) : ∀ c ∈ rest.head?, c.isDigit = false := by
  intro c hc
  rcases h c hc with rfl | rfl | rfl <;> rfl

theorem readFraction_ends (h : Ends rest) : readFraction rest = some ([], rest) := by
  cases rest with
  | nil => rfl
  | cons c rest => rcases h c rfl with rfl | rfl | rfl <;> rfl

theorem readExponent_ends (h : Ends rest) : readExponent rest = some ([], rest) := by
  cases rest with
  | nil => rfl
  | cons c rest => rcases h c rfl with rfl | rfl | rfl <;> rfl

theorem head?_toDigits (h : 0 < n) : (Nat.toDigits 10 n).head? ≠ some '0' := by
  induction n using Nat.strongRecOn with
  | ind n ih =>
    rw [Nat.toDigits_eq_if (by decide)]
    split
    case isTrue hlt =>
      have hzero : n.digitChar ≠ '0' := by
        rw [Ne, Nat.digitChar_eq_zero]
        omega
      simpa using hzero
    case isFalse hge =>
      rw [List.head?_append_of_ne_nil _ Nat.toDigits_ne_nil]
      exact ih (n / 10) (by omega) (by omega)

theorem needlessZero_toDigits (n : Nat) :
    ((Nat.toDigits 10 n).head? = some '0' && (Nat.toDigits 10 n).length != 1) = false := by
  cases n with
  | zero => rfl
  | succ n => simp [head?_toDigits (Nat.succ_pos n)]

theorem digitsValue_toDigits (n : Nat) : digitsValue (Nat.toDigits 10 n) = n :=
  Nat.ofDigitChars_toDigits (by decide) (by decide)

theorem isDigit_toDigits (n : Nat) : ∀ c ∈ Nat.toDigits 10 n, c.isDigit = true :=
  fun _ hc => Nat.isDigit_of_mem_toDigits (by decide) (by decide) hc

theorem readUnsigned_toDigits (negative : Bool) (n : Nat)
    (hword : isWord (if negative then -(n : Int) else n) = true)
    (hzero : negative = true → n ≠ 0) (hrest : Ends rest) :
    readUnsigned negative (Nat.toDigits 10 n ++ rest) =
      some (.int (if negative then -(n : Int) else n), rest) := by
  rw [readUnsigned, readDigits_append Nat.toDigits_ne_nil (isDigit_toDigits n) hrest.isDigit]
  simp only [Option.bind_eq_bind, Option.bind_some, needlessZero_toDigits, Bool.false_eq_true,
    if_false, readFraction_ends hrest, readExponent_ends hrest, digitsValue_toDigits, hword]
  cases negative with
  | false => rfl
  | true => simp [hzero rfl]

theorem readNumber_of_ne (hc : c ≠ '-') : readNumber (c :: cs) = readUnsigned false (c :: cs) := by
  rw [readNumber.eq_def]
  split
  case h_1 heq =>
    cases heq
    exact absurd rfl hc
  case h_2 => rfl

theorem ne_of_isDigit {d : Char} (hc : c.isDigit = true) (hd : d.isDigit = false) : c ≠ d := by
  rintro rfl
  rw [hc] at hd
  cases hd

theorem toList_toString_ofNat (n : Nat) :
    (toString (Int.ofNat n)).toList = Nat.toDigits 10 n := by
  change n.repr.toList = _
  rw [Nat.repr_eq_ofList_toDigits, String.toList_ofList]

theorem toList_toString_negSucc (n : Nat) :
    (toString (Int.negSucc n)).toList = '-' :: Nat.toDigits 10 (n + 1) := by
  change ("-" ++ (n + 1).repr).toList = _
  rw [Nat.repr_eq_ofList_toDigits]
  simp

theorem readNumber_int (n : Int) (hn : isWord n = true) (hrest : Ends rest) :
    readNumber ((toString n).toList ++ rest) = some (.int n, rest) := by
  cases n with
  | ofNat n =>
    have hread := readUnsigned_toDigits false n hn nofun hrest
    rw [toList_toString_ofNat]
    cases hdigits : Nat.toDigits 10 n with
    | nil => exact absurd hdigits Nat.toDigits_ne_nil
    | cons c digits =>
      have hc := isDigit_toDigits n c (by simp [hdigits])
      rw [hdigits] at hread
      rw [List.cons_append, readNumber_of_ne (ne_of_isDigit hc rfl)]
      exact hread
  | negSucc n =>
    rw [toList_toString_negSucc]
    exact readUnsigned_toDigits true (n + 1) hn (fun _ => Nat.succ_ne_zero n) hrest

end EbuildAudit.Json
