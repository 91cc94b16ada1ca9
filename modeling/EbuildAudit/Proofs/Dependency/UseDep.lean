import EbuildAudit.Dependency.Atom
import EbuildAudit.Proofs.Text.Pieces

namespace EbuildAudit.Dependency

open Text

def UseDefault.chars : UseDefault → List Char
  | .enabled => ['(', '+', ')']
  | .disabled => ['(', '-', ')']

namespace UseDep

def sign (d : UseDep) : List Char :=
  if d.negated then [if d.conditional then '!' else '-'] else []

def namedChars (d : UseDep) : List Char :=
  d.flag.toList ++ d.default.elim [] UseDefault.chars

def chars (d : UseDep) : List Char :=
  d.sign ++ (d.namedChars ++ if d.conditional then ['?'] else [])

end UseDep

def useDepChars (deps : List UseDep) : List Char :=
  if deps = [] then [] else '[' :: ([','].intercalate (deps.map UseDep.chars) ++ [']'])

variable {c : Char} {cs rest entry : List Char}

theorem not_isBlank_of_isFlagChar (hc : isFlagChar c) : ¬isBlank c := by
  simp only [isFlagChar, Bool.or_eq_true, beq_iff_eq] at hc
  rcases hc with (((halphanum | rfl) | rfl) | rfl) | rfl
  · exact not_isBlank_of_isAlphanum halphanum
  all_goals decide

namespace UseDep

variable {dep : UseDep}

structure Normal (dep : UseDep) : Prop where
  nonempty : dep.flag.toList ≠ []
  isFlagChar : ∀ c ∈ dep.flag.toList, isFlagChar c
  head : dep.negated = false → dep.flag.toList.head? ≠ some '-'

theorem takeNegation_of_ne (h : cs.head? ≠ some '!') (h' : cs.head? ≠ some '-') :
    takeNegation cs = (false, cs) := by
  rw [takeNegation.eq_def]
  split
  case h_1 => exact absurd rfl h
  case h_2 => exact absurd rfl h'
  case h_3 => rfl

theorem takeCondition_of_ne (h : cs.head? ≠ some '?') (h' : cs.head? ≠ some '=') :
    takeCondition cs = (false, cs) := by
  rw [takeCondition.eq_def]
  split
  case h_1 => exact absurd rfl h
  case h_2 => exact absurd rfl h'
  case h_3 => rfl

theorem takeDefault_of_ne (h : cs.head? ≠ some ')') : takeDefault cs = (none, cs) := by
  rw [takeDefault.eq_def]
  split
  case h_1 => exact absurd rfl h
  case h_2 => exact absurd rfl h
  case h_3 => rfl

namespace Normal

theorem of_mem_chars (h : dep.Normal) (hc : c ∈ dep.chars) :
    Dependency.isFlagChar c ∨ c ∈ ['!', '(', ')', '?'] := by
  simp only [chars, sign, namedChars, List.mem_append] at hc
  rcases hc with hc | (hc | hc) | hc
  case inl =>
    split at hc
    · rw [List.mem_singleton] at hc
      subst hc
      cases dep.conditional <;> decide
    · cases hc
  case inr.inl.inl => exact .inl (h.isFlagChar c hc)
  case inr.inl.inr =>
    cases hdefault : dep.default with
    | none =>
      rw [hdefault] at hc
      cases hc
    | some default =>
      rw [hdefault] at hc
      cases default
      all_goals
        simp only [Option.elim_some, UseDefault.chars, List.mem_cons, List.not_mem_nil,
          or_false] at hc
        rcases hc with rfl | rfl | rfl <;> decide
  case inr.inr =>
    split at hc
    · exact .inr (by simp_all)
    · cases hc

theorem trimWhile_chars (h : dep.Normal) : trimWhile isBlank dep.chars = dep.chars := by
  refine trimWhile_eq_self fun c hc => ?_
  rcases h.of_mem_chars hc with hflag | hsign
  · exact not_isBlank_of_isFlagChar hflag
  · simp only [List.mem_cons, List.not_mem_nil, or_false] at hsign
    rcases hsign with rfl | rfl | rfl | rfl <;> decide

theorem not_mem_chars (h : dep.Normal) : ',' ∉ dep.chars := by
  intro hmem
  rcases h.of_mem_chars hmem with hflag | hsign
  · exact absurd hflag (by decide)
  · exact absurd hsign (by decide)

theorem takeNegation_chars (h : dep.Normal) : takeNegation dep.chars =
    (dep.negated, dep.namedChars ++ if dep.conditional then ['?'] else []) := by
  rw [chars, sign]
  cases hnegated : dep.negated with
  | true => cases dep.conditional <;> rfl
  | false =>
    have hhead : ∀ c, dep.flag.toList.head? ≠ some c → (dep.namedChars ++
        if dep.conditional then ['?'] else []).head? ≠ some c := by
      intro c hc
      rw [namedChars, List.append_assoc, List.head?_append_of_ne_nil _ h.nonempty]
      exact hc
    refine takeNegation_of_ne (hhead '!' fun hmark => ?_) (hhead '-' (h.head hnegated))
    exact absurd (h.isFlagChar '!' (List.mem_of_mem_head? hmark)) (by decide)

theorem head?_reverse_ne (h : dep.Normal) (hc : ¬Dependency.isFlagChar c) :
    dep.flag.toList.reverse.head? ≠ some c :=
  fun hhead => hc (h.isFlagChar c (List.mem_reverse.1 (List.mem_of_mem_head? hhead)))

theorem takeCondition_reverse (h : dep.Normal) :
    takeCondition (dep.namedChars ++ if dep.conditional then ['?'] else []).reverse =
      (dep.conditional, dep.namedChars.reverse) := by
  cases dep.conditional with
  | true => simp [takeCondition]
  | false =>
    rw [if_neg Bool.false_ne_true, List.append_nil, namedChars]
    cases dep.default with
    | none =>
      rw [Option.elim_none, List.append_nil]
      exact takeCondition_of_ne (h.head?_reverse_ne (by decide)) (h.head?_reverse_ne (by decide))
    | some default => cases default <;> simp [UseDefault.chars, takeCondition]

theorem takeDefault_reverse (h : dep.Normal) :
    takeDefault dep.namedChars.reverse = (dep.default, dep.flag.toList.reverse) := by
  rw [namedChars]
  cases dep.default with
  | none =>
    rw [Option.elim_none, List.append_nil]
    exact takeDefault_of_ne (h.head?_reverse_ne (by decide))
  | some default => cases default <;> simp [UseDefault.chars, takeDefault]

theorem parse?_chars (h : dep.Normal) : parse? dep.chars = some dep := by
  have hne : dep.flag.toList.reverse.isEmpty = false := by
    simpa using h.nonempty
  have hall : dep.flag.toList.reverse.all Dependency.isFlagChar = true := by
    simpa using h.isFlagChar
  simp only [parse?, h.trimWhile_chars, h.takeNegation_chars, h.takeCondition_reverse,
    h.takeDefault_reverse, hne, hall]
  simp

end Normal

theorem head?_takeNegation {negated : Bool} (h : takeNegation cs = (negated, rest))
    (hnegated : negated = false) : rest.head? ≠ some '-' := by
  rw [takeNegation.eq_def] at h
  split at h
  case h_1 => cases h; cases hnegated
  case h_2 => cases h; cases hnegated
  case h_3 hminus =>
    cases h
    intro hhead
    obtain ⟨tail, rfl⟩ := List.head?_eq_some_iff.1 hhead
    exact hminus tail rfl

theorem takeCondition_suffix {conditional : Bool} (h : takeCondition cs = (conditional, rest)) :
    rest <:+ cs := by
  rw [takeCondition.eq_def] at h
  split at h <;> cases h
  · exact List.suffix_cons _ _
  · exact List.suffix_cons _ _
  · exact List.suffix_rfl

theorem takeDefault_suffix {default : Option UseDefault} (h : takeDefault cs = (default, rest)) :
    rest <:+ cs := by
  rw [takeDefault.eq_def] at h
  split at h <;> cases h
  · exact List.suffix_append [')', '+', '('] _
  · exact List.suffix_append [')', '-', '('] _
  · exact List.suffix_rfl

theorem normal_of_parse? (h : parse? entry = some dep) : dep.Normal := by
  rcases hnegation : takeNegation (trimWhile isBlank entry) with ⟨negated, signed⟩
  rcases hcondition : takeCondition signed.reverse with ⟨conditional, named⟩
  rcases hdefault : takeDefault named with ⟨default, flag⟩
  simp only [parse?, hnegation, hcondition, hdefault, Option.ite_none_left_eq_some] at h
  obtain ⟨hflag, h⟩ := h
  obtain rfl := Option.some_inj.1 h
  simp only [Bool.or_eq_true, List.isEmpty_iff, Bool.not_eq_true', not_or,
    Bool.not_eq_false, List.all_eq_true] at hflag
  obtain ⟨hne, hall⟩ := hflag
  refine ⟨by simpa using hne, by simpa using hall, fun hnegated => ?_⟩
  have hbegins : flag.reverse <+: signed := by
    have hsuffix := (takeDefault_suffix hdefault).trans (takeCondition_suffix hcondition)
    exact List.reverse_suffix.1 (by simpa using hsuffix)
  obtain ⟨tail, rfl⟩ := hbegins
  have hhead := head?_takeNegation hnegation hnegated
  rw [List.head?_append_of_ne_nil _ (by simpa using hne)] at hhead
  rwa [String.toList_ofList]

end UseDep

theorem cutUseDeps_append {deps : List UseDep} (hfront : '[' ∉ cs) (h : ∀ dep ∈ deps, dep.Normal) :
    Atom.cutUseDeps (cs ++ useDepChars deps) = .ok (cs, deps) := by
  rw [Atom.cutUseDeps, useDepChars]
  by_cases hdeps : deps = []
  · rw [if_pos hdeps, List.append_nil, cutAt?_singleton_eq_none.2 hfront, hdeps]
  · have hentries : ([','].intercalate (deps.map UseDep.chars)).splitOn ',' =
        deps.map UseDep.chars := by
      refine List.splitOn_intercalate _ (fun entry hentry => ?_) (by simpa using hdeps)
      obtain ⟨dep, hdep, rfl⟩ := List.mem_map.1 hentry
      exact (h dep hdep).not_mem_chars
    have hparse : (deps.map UseDep.chars).mapM UseDep.parse? = some deps := by
      rw [mapM_eq_some_iff, List.forall₂_map_left_iff, List.forall₂_same]
      exact fun dep hdep => (h dep hdep).parse?_chars
    rw [if_neg hdeps, cutAt?_singleton hfront]
    simp only [List.reverse_append, List.reverse_cons, List.reverse_nil, List.nil_append,
      List.singleton_append, List.reverse_reverse, hentries, hparse]

theorem of_cutUseDeps {deps : List UseDep} (h : Atom.cutUseDeps cs = .ok (rest, deps)) :
    '[' ∉ rest ∧ ∀ dep ∈ deps, dep.Normal := by
  rw [Atom.cutUseDeps] at h
  split at h
  case h_1 hcut =>
    cases h
    exact ⟨cutAt?_singleton_eq_none.1 hcut, nofun⟩
  case h_2 before after hcut =>
    split at h
    case h_1 inner hinner =>
      split at h
      case h_1 deps' hdeps =>
        cases h
        refine ⟨cutAt?_singleton_eq_none.1 (cutAt?_eq_some (by simp) hcut).2, fun dep hdep => ?_⟩
        obtain ⟨entry, -, hentry⟩ := exists_of_mem_mapM hdeps hdep
        exact UseDep.normal_of_parse? hentry
      case h_2 => cases h
    case h_2 => cases h

end EbuildAudit.Dependency
