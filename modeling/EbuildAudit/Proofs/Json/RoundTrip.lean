import EbuildAudit.Proofs.Json.Scalars

/-!
A JSON value is read as it was written, unless it is nested too deeply to be read at all. This is so
of values that can be told apart in a text: integers fit into a word, other numbers are written as
the reader leaves them, and no object repeats a field.
-/

namespace EbuildAudit.Json

/-- A value that stands for itself in a text. -/
inductive Proper : Json → Prop
  | null : Proper .null
  | bool (b : Bool) : Proper (.bool b)
  | int {n : Int} : isWord n = true → Proper (.int n)
  | real {written : String} : readNumber written.toList = some (.real written, []) →
      Proper (.real written)
  | str (s : String) : Proper (.str s)
  | arr {items : List Json} : (∀ item ∈ items, Proper item) → Proper (.arr items)
  | obj {fields : List (String × Json)} : (fields.map (·.1)).Nodup →
      (∀ field ∈ fields, Proper field.2) → Proper (.obj fields)

mutual

def depth : Json → Nat
  | .arr items => depthItems items + 1
  | .obj fields => depthFields fields + 1
  | .null | .bool _ | .int _ | .real _ | .str _ => 0

def depthItems : List Json → Nat
  | [] => 0
  | item :: items => max item.depth (depthItems items)

def depthFields : List (String × Json) → Nat
  | [] => 0
  | (_, value) :: fields => max value.depth (depthFields fields)

end

variable {cs rest digits taken : List Char} {c : Char} {j : Json} {fuel n : Nat}
  {negative : Bool} {items : List Json} {fields : List (String × Json)}

theorem ite_append {p : Prop} [Decidable p] {a b : Json}
    (h : (if p then some (a, cs) else some (b, cs)) = some (j, taken)) :
    (if p then some (a, cs ++ rest) else some (b, cs ++ rest)) = some (j, taken ++ rest) := by
  split at h
  case isTrue hp =>
    cases h
    exact if_pos hp
  case isFalse hp =>
    cases h
    exact if_neg hp

section

variable (hrest : Ends rest)
include hrest

theorem readDigits_ends (h : readDigits cs = some (digits, taken)) :
    readDigits (cs ++ rest) = some (digits, taken ++ rest) := by
  simp only [readDigits, Option.ite_none_left_eq_some, Option.some.injEq, Prod.mk.injEq] at h
  obtain ⟨hne, rfl, rfl⟩ := h
  have hstop : ∀ c ∈ (cs.dropWhile Char.isDigit ++ rest).head?, c.isDigit = false := by
    have hhead := List.head?_dropWhile_not Char.isDigit cs
    cases hdrop : cs.dropWhile Char.isDigit with
    | nil => exact hrest.isDigit
    | cons c taken =>
      rw [hdrop] at hhead
      rintro d hd
      cases hd
      exact hhead
  have hread := readDigits_append (by simpa using hne) (List.all_eq_true.1 List.all_takeWhile) hstop
  rwa [← List.append_assoc, List.takeWhile_append_dropWhile] at hread

theorem readDigits_map (f : List Char → List Char)
    (h : ((readDigits cs).map fun (digits, rest) => (f digits, rest)) = some (digits, taken)) :
    ((readDigits (cs ++ rest)).map fun (digits, rest) => (f digits, rest)) =
      some (digits, taken ++ rest) := by
  obtain ⟨⟨found, left⟩, hfound, heq⟩ := Option.map_eq_some_iff.1 h
  cases heq
  rw [readDigits_ends hrest hfound]
  rfl

theorem readFraction_append (h : readFraction cs = some (digits, taken)) :
    readFraction (cs ++ rest) = some (digits, taken ++ rest) := by
  cases cs with
  | nil =>
    cases h
    exact readFraction_ends hrest
  | cons c cs =>
    by_cases hc : c = '.'
    · subst hc
      exact readDigits_map hrest ('.' :: ·) h
    · have hnone (cs : List Char) : readFraction (c :: cs) = some ([], c :: cs) := by
        rw [readFraction.eq_def]
        split
        case h_1 heq =>
          cases heq
          exact absurd rfl hc
        case h_2 => rfl
      rw [hnone] at h
      cases h
      exact hnone _

theorem readExponent_append (h : readExponent cs = some (digits, taken)) :
    readExponent (cs ++ rest) = some (digits, taken ++ rest) := by
  cases cs with
  | nil =>
    cases h
    exact readExponent_ends hrest
  | cons c cs =>
    rw [List.cons_append]
    simp only [readExponent] at h ⊢
    split
    case isFalse hc =>
      rw [if_neg hc] at h
      cases h
      rfl
    case isTrue hc =>
      rw [if_pos hc] at h
      split at h
      case h_1 => exact readDigits_map hrest ('e' :: ·) h
      case h_2 => exact readDigits_map hrest ('e' :: '-' :: ·) h
      case h_3 hplus hminus =>
        cases cs with
        | nil => cases h
        | cons d cs =>
          split
          case h_1 heq =>
            cases heq
            exact absurd rfl (hplus cs)
          case h_2 heq =>
            cases heq
            exact absurd rfl (hminus cs)
          case h_3 => exact readDigits_map hrest ('e' :: ·) h

theorem readUnsigned_append (h : readUnsigned negative cs = some (j, taken)) :
    readUnsigned negative (cs ++ rest) = some (j, taken ++ rest) := by
  obtain ⟨⟨digits, afterDigits⟩, hdigits, h⟩ := Option.bind_eq_some_iff.1 h
  simp only at h
  split at h
  case isTrue => cases h
  case isFalse hzero =>
    obtain ⟨⟨fraction, afterFraction⟩, hfraction, h⟩ := Option.bind_eq_some_iff.1 h
    obtain ⟨⟨exponent, afterExponent⟩, hexponent, h⟩ := Option.bind_eq_some_iff.1 h
    simp only [readUnsigned, Option.bind_eq_bind, readDigits_ends hrest hdigits, Option.bind_some,
      if_neg hzero, readFraction_append hrest hfraction, readExponent_append hrest hexponent]
    exact ite_append h

theorem readNumber_append (h : readNumber cs = some (j, taken)) :
    readNumber (cs ++ rest) = some (j, taken ++ rest) := by
  cases cs with
  | nil => cases h
  | cons c cs =>
    by_cases hc : c = '-'
    · subst hc
      exact readUnsigned_append hrest h
    · rw [readNumber_of_ne hc] at h
      rw [List.cons_append, readNumber_of_ne hc]
      exact readUnsigned_append hrest h

end

theorem skipBlanks_cons (h : isBlank c = false) : skipBlanks (c :: cs) = c :: cs := by
  rw [skipBlanks, List.dropWhile_cons_of_neg (by simp [h])]

def StartsNumber (c : Char) : Prop :=
  c.isDigit = true ∨ c = '-'

theorem StartsNumber.ne {d : Char} (hc : StartsNumber c) (hd : d.isDigit = false) (hd' : d ≠ '-') :
    c ≠ d := by
  rcases hc with hc | rfl
  · exact ne_of_isDigit hc hd
  · exact hd'.symm

theorem StartsNumber.isBlank (hc : StartsNumber c) : isBlank c = false := by
  simp only [Json.isBlank, Bool.or_eq_false_iff, beq_eq_false_iff_ne]
  exact ⟨⟨⟨hc.ne rfl (by decide), hc.ne rfl (by decide)⟩, hc.ne rfl (by decide)⟩,
    hc.ne rfl (by decide)⟩

theorem readValue_number (hc : StartsNumber c) :
    readValue (fuel + 1) n (c :: cs) = readNumber (c :: cs) := by
  rw [readValue, skipBlanks_cons hc.isBlank]
  split
  case h_7 => rfl
  all_goals
    rename_i heq
    cases heq
    exact absurd rfl (hc.ne rfl (by decide))

theorem startsNumber_of_readNumber (h : readNumber cs = some (j, taken)) :
    ∃ c cs', cs = c :: cs' ∧ StartsNumber c := by
  cases cs with
  | nil => cases h
  | cons c cs =>
    refine ⟨c, cs, rfl, ?_⟩
    by_cases hc : c = '-'
    · exact .inr hc
    · rw [readNumber_of_ne hc] at h
      obtain ⟨digits, hdigits, -⟩ := Option.bind_eq_some_iff.1 h
      by_contra hnot
      have hdigit : ¬c.isDigit = true := fun hdigit => hnot (.inl hdigit)
      rw [readDigits, List.takeWhile_cons_of_neg hdigit] at hdigits
      cases hdigits

theorem exists_printChars (hj : Proper j) :
    ∃ c cs, j.printChars = c :: cs ∧ isBlank c = false ∧ c ≠ ']' := by
  have hnumber {cs : List Char} {taken : List Char}
      (h : readNumber cs = some (j, taken)) :
      ∃ c cs', cs = c :: cs' ∧ isBlank c = false ∧ c ≠ ']' := by
    obtain ⟨c, cs', hcs, hc⟩ := startsNumber_of_readNumber h
    exact ⟨c, cs', hcs, hc.isBlank, hc.ne rfl (by decide)⟩
  cases hj with
  | null => exact ⟨_, _, rfl, rfl, by decide⟩
  | bool b => cases b <;> exact ⟨_, _, rfl, rfl, by decide⟩
  | int hn =>
    rw [printChars]
    have hread := readNumber_int _ hn .nil
    rw [List.append_nil] at hread
    exact hnumber hread
  | real hwritten =>
    rw [printChars]
    exact hnumber hwritten
  | str s => exact ⟨_, _, rfl, rfl, by decide⟩
  | arr hitems => exact ⟨_, _, rfl, rfl, by decide⟩
  | obj hnames hfields => exact ⟨_, _, rfl, rfl, by decide⟩

theorem readValue_of_readNumber (hrest : Ends rest) (h : readNumber cs = some (j, [])) :
    readValue (fuel + 1) n (cs ++ rest) = some (j, rest) := by
  obtain ⟨c, cs', rfl, hc⟩ := startsNumber_of_readNumber h
  rw [List.cons_append, readValue_number hc, ← List.cons_append, readNumber_append hrest h]
  rfl

theorem readValue_arr (hcs : ∃ c cs', cs = c :: cs' ∧ isBlank c = false ∧ c ≠ ']') :
    readValue (fuel + 1) (n + 1) ('[' :: cs) =
      (readItems fuel n cs).map fun (items, rest) => (.arr items, rest) := by
  obtain ⟨c, cs', rfl, hblank, hc⟩ := hcs
  have hbracket : skipBlanks ('[' :: c :: cs') = '[' :: c :: cs' := skipBlanks_cons (by decide)
  rw [readValue]
  simp only [hbracket, skipBlanks_cons hblank]
  split
  case h_1 heq =>
    cases heq
    exact absurd rfl hc
  case h_2 => rfl

theorem readValue_obj :
    readValue (fuel + 1) (n + 1) ('\x7b' :: '"' :: cs) =
      (readFields fuel n ('"' :: cs)).map fun (fields, rest) => (.obj fields, rest) :=
  rfl

section

variable {k : Json} {name : String}

theorem readItems_of_none (h : readValue fuel n cs = none) : readItems (fuel + 1) n cs = none := by
  rw [readItems, h]
  rfl

theorem readItems_last (h : readValue fuel n cs = some (j, ']' :: rest)) :
    readItems (fuel + 1) n cs = some ([j], rest) := by
  rw [readItems, h]
  rfl

theorem readItems_more (h : readValue fuel n cs = some (j, ',' :: rest)) :
    readItems (fuel + 1) n cs =
      (readItems fuel n rest).map fun (items, rest) => (j :: items, rest) := by
  rw [readItems, h]
  exact Option.map_eq_bind.symm

section

variable {fieldText : List Char}
  (hfield : fieldText = '"' :: (name.toList.flatMap escapeChar ++ '"' :: ':' :: cs))
include hfield

theorem readFields_of_none (h : readValue fuel n cs = none) :
    readFields (fuel + 1) n fieldText = none := by
  subst hfield
  change ((readString _).bind _) = none
  rw [readString_printString]
  change ((readValue fuel n cs).bind _) = none
  rw [h]
  rfl

theorem readFields_last (h : readValue fuel n cs = some (j, '\x7d' :: rest)) :
    readFields (fuel + 1) n fieldText = some ([(name, j)], rest) := by
  subst hfield
  change ((readString _).bind _) = _
  rw [readString_printString]
  change ((readValue fuel n cs).bind _) = _
  rw [h]
  change some ([(String.ofList name.toList, j)], rest) = _
  rw [String.ofList_toList]

theorem readFields_more (h : readValue fuel n cs = some (j, ',' :: rest)) :
    readFields (fuel + 1) n fieldText =
      (readFields fuel n rest).map fun (fields, rest) => ((name, j) :: fields, rest) := by
  subst hfield
  change ((readString _).bind _) = _
  rw [readString_printString]
  change ((readValue fuel n cs).bind _) = _
  rw [h]
  change ((readFields fuel n rest).bind fun found =>
    some ((String.ofList name.toList, j) :: found.1, found.2)) = _
  rw [String.ofList_toList]
  exact Option.map_eq_bind.symm

end

end

theorem printItems_cons (j : Json) (items : List Json) : printItems (j :: items) =
    j.printChars ++ match items with
      | [] => []
      | _ :: _ => ',' :: printItems items := by
  cases items <;> simp [printItems]

theorem printFields_cons (name : String) (j : Json) (fields : List (String × Json)) :
    printFields ((name, j) :: fields) =
      '"' :: (name.toList.flatMap escapeChar ++ '"' :: ':' :: (j.printChars ++ match fields with
        | [] => []
        | _ :: _ => ',' :: printFields fields)) := by
  cases fields <;> simp [printFields, printString]

theorem exists_printItems (hne : items ≠ []) (hitems : ∀ item ∈ items, Proper item) :
    ∃ c cs, printItems items = c :: cs ∧ isBlank c = false ∧ c ≠ ']' := by
  obtain ⟨j, items, rfl⟩ := List.exists_cons_of_ne_nil hne
  obtain ⟨c, cs, hcs, hc⟩ := exists_printChars (hitems j List.mem_cons_self)
  rw [printItems_cons, hcs]
  exact ⟨c, _, rfl, hc⟩

theorem exists_printFields (hne : fields ≠ []) : ∃ cs, printFields fields = '"' :: cs := by
  obtain ⟨⟨name, j⟩, fields, rfl⟩ := List.exists_cons_of_ne_nil hne
  rw [printFields_cons]
  exact ⟨_, rfl⟩

theorem map_ite {α β : Type} {p q : Prop} [Decidable p] [Decidable q] (f : α → β) (a : α)
    (h : p ↔ q) : (if p then some a else none).map f = if q then some (f a) else none := by
  by_cases hp : p
  · rw [if_pos hp, if_pos (h.1 hp), Option.map_some]
  · rw [if_neg hp, if_neg (mt h.2 hp), Option.map_none]

-- Fuel for two steps at each character is enough, and what follows the text stays unread. Depth is
-- the one thing that the reader may refuse.
mutual

theorem readValue_printChars (j : Json) (hj : Proper j) (fuel n : Nat) (rest : List Char)
    (hrest : Ends rest) (hfuel : 2 * j.printChars.length < fuel) :
    readValue fuel n (j.printChars ++ rest) =
      if j.depth ≤ n then some (j, rest) else none := by
  obtain ⟨fuel, rfl⟩ : ∃ m, fuel = m + 1 := ⟨fuel - 1, by omega⟩
  cases hj with
  | null =>
    rw [depth, if_pos (Nat.zero_le n)]
    rfl
  | bool b =>
    rw [depth, if_pos (Nat.zero_le n)]
    cases b <;> rfl
  | int hn =>
    rw [printChars, depth, if_pos (Nat.zero_le n)]
    apply readValue_of_readNumber hrest
    simpa using readNumber_int _ hn .nil
  | real hwritten =>
    rw [printChars, depth, if_pos (Nat.zero_le n)]
    exact readValue_of_readNumber hrest hwritten
  | str s =>
    rw [depth, if_pos (Nat.zero_le n)]
    change (readString (s.toList.flatMap escapeChar ++ ['"'] ++ rest)).map _ = _
    rw [List.append_assoc, List.singleton_append, readString_printString, Option.map_some]
    simp only [String.ofList_toList]
  | @arr items hitems =>
    rw [printChars] at hfuel ⊢
    rw [depth]
    cases n with
    | zero =>
      rw [if_neg (by omega)]
      rfl
    | succ n =>
      by_cases hne : items = []
      · subst hne
        rw [depthItems, if_pos (by omega)]
        rfl
      · obtain ⟨c, cs, hcs, hblank, hc⟩ := exists_printItems hne hitems
        have hread := readItems_printItems items hne hitems fuel n rest (by simp at hfuel; omega)
        have htext : '[' :: printItems items ++ [']'] ++ rest =
            '[' :: (printItems items ++ ']' :: rest) := by simp
        rw [htext, readValue_arr ⟨c, cs ++ ']' :: rest, by rw [hcs]; rfl, hblank, hc⟩, hread]
        exact map_ite _ _ (by omega)
  | @obj fields hnames hfields =>
    rw [printChars] at hfuel ⊢
    rw [depth]
    cases n with
    | zero =>
      rw [if_neg (by omega)]
      rfl
    | succ n =>
      by_cases hne : fields = []
      · subst hne
        rw [depthFields, if_pos (by omega)]
        rfl
      · obtain ⟨cs, hcs⟩ := exists_printFields hne
        have hread :=
          readFields_printFields fields hne hfields fuel n rest (by simp at hfuel; omega)
        have htext : '\x7b' :: printFields fields ++ ['\x7d'] ++ rest =
            '\x7b' :: '"' :: (cs ++ '\x7d' :: rest) := by simp [hcs]
        rw [hcs, List.cons_append] at hread
        rw [htext, readValue_obj, hread]
        exact map_ite _ _ (by omega)

theorem readItems_printItems (items : List Json) (hne : items ≠ [])
    (hitems : ∀ item ∈ items, Proper item) (fuel n : Nat) (rest : List Char)
    (hfuel : 2 * (printItems items).length + 1 < fuel) :
    readItems fuel n (printItems items ++ ']' :: rest) =
      if depthItems items ≤ n then some (items, rest) else none := by
  obtain ⟨fuel, rfl⟩ : ∃ m, fuel = m + 1 := ⟨fuel - 1, by omega⟩
  match items, hne with
  | j :: items, _ =>
    rw [printItems_cons] at hfuel ⊢
    rw [depthItems, List.append_assoc]
    obtain ⟨hj, hitems⟩ := List.forall_mem_cons.1 hitems
    match items with
    | [] =>
      have hread := readValue_printChars j hj fuel n (']' :: rest) (.cons (by decide))
        (by simp at hfuel; omega)
      rw [depthItems, Nat.max_zero, List.nil_append]
      by_cases hdepth : j.depth ≤ n
      · rw [if_pos hdepth] at hread ⊢
        exact readItems_last hread
      · rw [if_neg hdepth] at hread ⊢
        exact readItems_of_none hread
    | k :: items =>
      have hread :=
        readValue_printChars j hj fuel n (',' :: (printItems (k :: items) ++ ']' :: rest))
        (.cons (by decide)) (by simp at hfuel; omega)
      have hrest := readItems_printItems (k :: items) (List.cons_ne_nil _ _) hitems fuel n rest
        (by simp at hfuel; omega)
      simp only [List.cons_append]
      by_cases hdepth : j.depth ≤ n
      · rw [if_pos hdepth] at hread
        rw [readItems_more hread, hrest]
        exact map_ite _ _ (by omega)
      · rw [if_neg hdepth] at hread
        rw [readItems_of_none hread, if_neg (by omega)]

theorem readFields_printFields (fields : List (String × Json)) (hne : fields ≠ [])
    (hfields : ∀ field ∈ fields, Proper field.2) (fuel n : Nat) (rest : List Char)
    (hfuel : 2 * (printFields fields).length + 1 < fuel) :
    readFields fuel n (printFields fields ++ '\x7d' :: rest) =
      if depthFields fields ≤ n then some (fields, rest) else none := by
  obtain ⟨fuel, rfl⟩ : ∃ m, fuel = m + 1 := ⟨fuel - 1, by omega⟩
  match fields, hne with
  | (name, j) :: fields, _ =>
    rw [printFields_cons] at hfuel ⊢
    rw [depthFields]
    obtain ⟨hj, hfields⟩ := List.forall_mem_cons.1 hfields
    match fields with
    | [] =>
      have hread := readValue_printChars j hj fuel n ('\x7d' :: rest) (.cons (by decide))
        (by simp at hfuel; omega)
      have htext : '"' :: (name.toList.flatMap escapeChar ++ '"' :: ':' :: (j.printChars ++ [])) ++
          '\x7d' :: rest = '"' :: (name.toList.flatMap escapeChar ++ '"' :: ':' ::
            (j.printChars ++ '\x7d' :: rest)) := by simp
      rw [depthFields, Nat.max_zero]
      by_cases hdepth : j.depth ≤ n
      · rw [if_pos hdepth] at hread ⊢
        exact readFields_last htext hread
      · rw [if_neg hdepth] at hread ⊢
        exact readFields_of_none htext hread
    | (k, l) :: fields =>
      have hread := readValue_printChars j hj fuel n
        (',' :: (printFields ((k, l) :: fields) ++ '\x7d' :: rest)) (.cons (by decide))
        (by simp at hfuel; omega)
      have hrest := readFields_printFields ((k, l) :: fields) (List.cons_ne_nil _ _) hfields fuel n
        rest (by simp at hfuel; omega)
      have htext : '"' :: (name.toList.flatMap escapeChar ++ '"' :: ':' ::
          (j.printChars ++ ',' :: printFields ((k, l) :: fields))) ++ '\x7d' :: rest =
            '"' :: (name.toList.flatMap escapeChar ++ '"' :: ':' ::
              (j.printChars ++ ',' :: (printFields ((k, l) :: fields) ++ '\x7d' :: rest))) := by
        simp
      by_cases hdepth : j.depth ≤ n
      · rw [if_pos hdepth] at hread
        rw [readFields_more htext hread, hrest]
        exact map_ite _ _ (by omega)
      · rw [if_neg hdepth] at hread
        rw [readFields_of_none htext hread, if_neg (by omega)]

end

/-- A text that was written for a value is read as this value, if its depth is allowed. -/
theorem parseRaw?_print (hj : Proper j) (n : Nat) :
    parseRaw? n j.print = if j.depth ≤ n then some j else none := by
  have hread := readValue_printChars j hj (2 * j.print.length + 2) n [] .nil
    (by simp [print])
  rw [List.append_nil] at hread
  rw [parseRaw?, print, String.toList_ofList, ← print, hread]
  by_cases hdepth : j.depth ≤ n
  · rw [if_pos hdepth, if_pos hdepth]
    rfl
  · rw [if_neg hdepth, if_neg hdepth]

theorem mergedItems_eq (h : ∀ item ∈ items, item.merged = item) : mergedItems items = items := by
  induction items with
  | nil => rfl
  | cons item items ih =>
    obtain ⟨hitem, hitems⟩ := List.forall_mem_cons.1 h
    rw [mergedItems, hitem, ih hitems]

theorem setField_new {done : List (String × Json)} {name : String} (h : name ∉ done.map (·.1)) :
    setField done name j = done ++ [(name, j)] := by
  rw [setField, if_neg]
  simpa using h

theorem mergedFields_eq {done : List (String × Json)}
    (h : ∀ field ∈ fields, field.2.merged = field.2)
    (hnames : ((done ++ fields).map (·.1)).Nodup) : mergedFields fields done = done ++ fields := by
  induction fields generalizing done with
  | nil => rw [mergedFields, List.append_nil]
  | cons field fields ih =>
    obtain ⟨name, j⟩ := field
    obtain ⟨hj, hfields⟩ := List.forall_mem_cons.1 h
    have hname : name ∉ done.map (·.1) := by
      rw [List.map_append, List.nodup_append] at hnames
      exact fun hmem => hnames.2.2 name hmem name List.mem_cons_self rfl
    rw [← List.singleton_append, ← List.append_assoc] at hnames
    rw [mergedFields, hj, setField_new hname, ih hfields hnames, List.append_assoc,
      List.singleton_append]

theorem Proper.merged_eq (hj : Proper j) : j.merged = j := by
  induction hj with
  | arr _ ih => rw [merged, mergedItems_eq ih]
  | obj hnames _ ih => rw [merged, mergedFields_eq ih (by simpa using hnames), List.nil_append]
  | _ => rfl

theorem parse?_print (hj : Proper j) :
    parse? j.print = if j.depth ≤ depthLimit then some j else none := by
  rw [parse?, parseRaw?_print hj]
  by_cases hdepth : j.depth ≤ depthLimit
  · rw [if_pos hdepth, Option.map_some, hj.merged_eq]
  · rw [if_neg hdepth, Option.map_none]

end EbuildAudit.Json
