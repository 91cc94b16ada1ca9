import EbuildAudit.Proofs.Basic
import EbuildAudit.Proofs.Dependency.UseDep
import EbuildAudit.Proofs.Version.Split

namespace EbuildAudit.Dependency

open Text

def Operator.sign : Operator → List Char
  | .less => ['<']
  | .lessEq => ['<', '=']
  | .equal => ['=']
  | .equalGlob => ['=']
  | .approx => ['~']
  | .greaterEq => ['>', '=']
  | .greater => ['>']

def slotChars (slot : Option String) : List Char :=
  slot.elim [] fun slot => ':' :: slot.toList

namespace Atom

def nameChars (a : Atom) : List Char :=
  a.category.toList ++ '/' :: a.package.toList

def bodyChars (a : Atom) : List Char :=
  a.nameChars ++ a.version.elim [] fun v => '-' :: v.text.toList

def signedChars (a : Atom) : List Char :=
  a.operator.elim [] Operator.sign ++
    (a.bodyChars ++ if a.operator = some .equalGlob then ['*'] else [])

def chars (a : Atom) : List Char :=
  (if a.blocker then ['!'] else []) ++ (a.signedChars ++ slotChars a.slot ++ useDepChars a.useDeps)

/-- The normal form of an atom. -/
def render (a : Atom) : String :=
  String.ofList a.chars

end Atom

variable {c : Char} {cs rest : List Char}

theorem cutSlot_append {slot : Option String} (hfront : ':' ∉ cs)
    (h : ∀ s ∈ slot, cutAt? [':', ':'] s.toList = none) :
    Atom.cutSlot (cs ++ slotChars slot) = (cs, slot) := by
  rw [Atom.cutSlot, slotChars]
  cases slot with
  | none => rw [Option.elim_none, List.append_nil, cutAt?_singleton_eq_none.2 hfront]
  | some s =>
    rw [Option.elim_some, cutAt?_singleton hfront]
    simp only [h s rfl, String.ofList_toList]

theorem of_cutSlot {slot : Option String} (h : Atom.cutSlot cs = (rest, slot)) :
    rest ⊆ cs ∧ ':' ∉ rest ∧
      ∀ s ∈ slot, s.toList ⊆ cs ∧ cutAt? [':', ':'] s.toList = none := by
  rw [Atom.cutSlot] at h
  split at h
  case h_1 hcut =>
    cases h
    exact ⟨List.Subset.refl _, cutAt?_singleton_eq_none.1 hcut, nofun⟩
  case h_2 before after hcut =>
    obtain ⟨rfl, hbefore⟩ := cutAt?_eq_some (List.cons_ne_nil _ _) hcut
    split at h
    case h_1 hdouble =>
      cases h
      refine ⟨List.subset_append_left _ _, cutAt?_singleton_eq_none.1 hbefore, ?_⟩
      rintro s ⟨⟩
      rw [String.toList_ofList]
      exact ⟨by simp, hdouble⟩
    case h_2 slot' others hdouble =>
      cases h
      obtain ⟨rfl, hslot⟩ := cutAt?_eq_some (List.cons_ne_nil _ _) hdouble
      refine ⟨List.subset_append_left _ _, cutAt?_singleton_eq_none.1 hbefore, ?_⟩
      rintro s ⟨⟩
      rw [String.toList_ofList]
      exact ⟨fun c hc => by simp [hc], hslot⟩

def Operator.plain : Operator → Operator
  | .equalGlob => .equal
  | op => op

theorem takeOperator_sign (op : Operator) (h : cs.head? ≠ some '=') :
    Atom.takeOperator (op.sign ++ cs) = (some op.plain, cs) := by
  have hequal : ∀ tail, cs = '=' :: tail → False := by
    rintro tail rfl
    exact h rfl
  cases op with
  | less =>
    rw [Operator.sign, List.singleton_append, Atom.takeOperator]
    · rfl
    · exact hequal
  | greater =>
    rw [Operator.sign, List.singleton_append, Atom.takeOperator]
    · rfl
    · exact hequal
  | _ => rfl

theorem takeOperator_of_isNameStart (h : ∀ c ∈ cs.head?, Atom.isNameStart c) :
    Atom.takeOperator cs = (none, cs) := by
  rw [Atom.takeOperator.eq_def]
  split
  case h_7 => rfl
  all_goals exact absurd (h _ rfl) (by decide)

theorem of_takeOperator {op : Option Operator} (h : Atom.takeOperator cs = (op, rest)) :
    rest ⊆ cs ∧ (op = none → rest = cs) := by
  rw [Atom.takeOperator.eq_def] at h
  split at h <;> cases h <;> simp

theorem takeStar_plain {op : Operator} (h : op ≠ .equalGlob → cs.getLast? ≠ some '*') :
    Atom.takeStar op.plain (cs ++ if op = .equalGlob then ['*'] else []) = .ok (op, cs) := by
  by_cases hop : op = .equalGlob
  · subst hop
    simp [Atom.takeStar, Operator.plain]
  · rw [if_neg hop, List.append_nil, Atom.takeStar.eq_def]
    have hplain : op.plain = op := by
      cases op <;> first | rfl | exact absurd rfl hop
    split
    case h_1 tail hstar =>
      exact absurd (by rw [← List.head?_reverse, hstar]; rfl) (h hop)
    case h_2 => rw [hplain]

theorem of_takeStar {op op' : Operator} (h : Atom.takeStar op cs = .ok (op', rest)) :
    rest ⊆ cs ∧ (op' ≠ .equalGlob → rest.getLast? ≠ some '*') := by
  rw [Atom.takeStar.eq_def] at h
  split at h
  case h_1 tail hstar =>
    split at h
    · cases h
      refine ⟨fun c hc => ?_, fun hne => absurd rfl hne⟩
      rw [← List.mem_reverse, hstar]
      exact List.mem_cons_of_mem _ (List.mem_reverse.1 hc)
    · cases h
  case h_2 hstar =>
    cases h
    refine ⟨List.Subset.refl _, fun _ hlast => ?_⟩
    rw [← List.head?_reverse] at hlast
    obtain ⟨tail, htail⟩ := List.head?_eq_some_iff.1 hlast
    exact hstar tail htail

section

variable {inner : Char → Bool} {category package : String} {v : Version} {front text : List Char}

theorem of_mem_of_isName (h : Atom.isName inner cs) (hc : c ∈ cs) : Atom.isNameStart c ∨ inner c := by
  cases cs with
  | nil => cases hc
  | cons d cs =>
    obtain ⟨hstart, hall⟩ := (Bool.and_eq_true _ _).mp h
    rcases List.mem_cons.1 hc with rfl | hc
    · exact .inl hstart
    · exact .inr (List.all_eq_true.1 hall c hc)

theorem not_mem_of_isName (h : Atom.isName inner cs) (hstart : ¬Atom.isNameStart c)
    (hinner : ¬inner c) : c ∉ cs :=
  fun hc => (of_mem_of_isName h hc).elim hstart hinner

theorem splitName_append (hcategory : Atom.isName Atom.isCategoryChar category.toList)
    (hpackage : Atom.isName Atom.isPackageChar package.toList) :
    Atom.splitName (category.toList ++ '/' :: package.toList) = .ok (category, package) := by
  have hslash : '/' ∉ category.toList := not_mem_of_isName hcategory (by decide) (by decide)
  rw [Atom.splitName, cutAt?_singleton hslash]
  simp only [hcategory, hpackage, Bool.and_self, if_true, String.ofList_toList]

theorem of_splitName (h : Atom.splitName cs = .ok (category, package)) :
    Atom.isName Atom.isCategoryChar category.toList ∧
      Atom.isName Atom.isPackageChar package.toList ∧
      cs = category.toList ++ '/' :: package.toList := by
  rw [Atom.splitName] at h
  split at h
  case h_1 before after hcut =>
    split at h
    case isTrue hnames =>
      cases h
      rw [Bool.and_eq_true] at hnames
      simp only [String.toList_ofList]
      exact ⟨hnames.1, hnames.2, (cutAt?_eq_some (List.cons_ne_nil _ _) hcut).1⟩
    case isFalse => cases h
  case h_2 => cases h

theorem of_splitVersion (h : Atom.splitVersion cs = .ok (front, v)) :
    cs = front ++ '-' :: v.text.toList := by
  rw [Atom.splitVersion] at h
  split at h
  case h_1 hsplit =>
    cases h
    simpa using (Version.of_splitFrom hsplit).1
  case h_2 => cases h

end

namespace Atom

variable {a : Atom}

/-- A version is set apart from a package where the text with an operator before it is split. -/
structure Normal (a : Atom) : Prop where
  category : isName isCategoryChar a.category.toList
  package : isName isPackageChar a.package.toList
  isSome : a.operator.isSome = a.version.isSome
  version : ∀ v ∈ a.version, splitVersion a.bodyChars = .ok (a.nameChars, v)
  star : a.operator.isSome → a.operator ≠ some .equalGlob → a.bodyChars.getLast? ≠ some '*'
  body : ':' ∉ a.bodyChars ∧ '[' ∉ a.bodyChars
  slot : ∀ s ∈ a.slot, '[' ∉ s.toList ∧ cutAt? [':', ':'] s.toList = none
  useDeps : ∀ dep ∈ a.useDeps, dep.Normal

namespace Normal

theorem exists_head (h : a.Normal) (tail : List Char) :
    ∃ c, (a.bodyChars ++ tail).head? = some c ∧ isNameStart c := by
  have hcategory := h.category
  cases hcs : a.category.toList with
  | nil =>
    rw [hcs] at hcategory
    cases hcategory
  | cons c cs =>
    rw [hcs] at hcategory
    refine ⟨c, ?_, ((Bool.and_eq_true _ _).mp hcategory).1⟩
    rw [bodyChars, nameChars, hcs]
    rfl

theorem takeOperator_signedChars (h : a.Normal) : takeOperator a.signedChars =
    (a.operator.map Operator.plain,
      a.bodyChars ++ if a.operator = some .equalGlob then ['*'] else []) := by
  obtain ⟨c, hhead, hstart⟩ := h.exists_head (if a.operator = some .equalGlob then ['*'] else [])
  rw [signedChars]
  cases hop : a.operator with
  | none =>
    rw [hop] at hhead
    refine takeOperator_of_isNameStart fun d hd => ?_
    rw [Option.elim_none, List.nil_append, hhead] at hd
    cases hd
    exact hstart
  | some op =>
    rw [hop] at hhead
    refine takeOperator_sign op fun hequal => ?_
    rw [hhead] at hequal
    cases hequal
    exact absurd hstart (by decide)

theorem head?_signedChars (h : a.Normal) (tail : List Char) :
    ∃ c, (a.signedChars ++ tail).head? = some c ∧ c ≠ '!' := by
  rw [signedChars]
  cases hop : a.operator with
  | none =>
    obtain ⟨c, hhead, hstart⟩ := h.exists_head tail
    refine ⟨c, by simpa using hhead, ?_⟩
    rintro rfl
    exact absurd hstart (by decide)
  | some op =>
    cases op <;> exact ⟨_, rfl, by decide⟩

theorem not_mem_signedChars (h : a.Normal) : ':' ∉ a.signedChars ∧ '[' ∉ a.signedChars := by
  have hsign : ∀ op : Operator, ':' ∉ op.sign ∧ '[' ∉ op.sign := by
    intro op
    cases op <;> decide
  obtain ⟨hcolon, hbracket⟩ := h.body
  cases hop : a.operator with
  | none => simp [signedChars, hop, hcolon, hbracket]
  | some op => by_cases hglob : op = .equalGlob <;>
      simp [signedChars, hop, hglob, hsign, hcolon, hbracket]

theorem not_mem_slotted (h : a.Normal) : '[' ∉ a.signedChars ++ slotChars a.slot := by
  rw [List.mem_append, not_or]
  refine ⟨h.not_mem_signedChars.2, ?_⟩
  cases hslot : a.slot with
  | none => exact List.not_mem_nil
  | some s => simp [slotChars, (h.slot s hslot).1]

theorem ofChars_chars (h : a.Normal) : ofChars a.chars = .ok a := by
  obtain ⟨c, hhead, hc⟩ := h.head?_signedChars (slotChars a.slot ++ useDepChars a.useDeps)
  have hblocker : decide (a.chars.head? = some '!') = a.blocker := by
    cases hb : a.blocker <;> simp [chars, hb, hhead, hc]
  have hdrop : a.chars.dropWhile (· = '!') =
      a.signedChars ++ slotChars a.slot ++ useDepChars a.useDeps := by
    obtain ⟨tail, htail⟩ := List.head?_eq_some_iff.1 hhead
    cases hb : a.blocker <;> simp [chars, hb, htail, hc]
  have huseDeps := cutUseDeps_append h.not_mem_slotted h.useDeps
  have hslot := cutSlot_append h.not_mem_signedChars.1 fun s hs => (h.slot s hs).2
  have hname : splitName a.nameChars = .ok (a.category, a.package) :=
    splitName_append h.category h.package
  have hisSome := h.isSome
  simp only [ofChars, hblocker, hdrop, huseDeps, bind, Except.bind, hslot,
    h.takeOperator_signedChars, pure, Except.pure]
  cases hop : a.operator with
  | none =>
    have hversion : a.version = none := by simpa [hop] using hisSome.symm
    have hbody : a.bodyChars = a.nameChars := by simp [bodyChars, hversion]
    simp only [Option.map_none, reduceCtorEq, if_false, List.append_nil, hbody, hname]
    rw [← hop, ← hversion]
  | some op =>
    obtain ⟨v, hversion⟩ : ∃ v, a.version = some v :=
      Option.isSome_iff_exists.1 (by rw [← hisSome, hop]; rfl)
    have hstar : takeStar op.plain (a.bodyChars ++ if op = .equalGlob then ['*'] else []) =
        .ok (op, a.bodyChars) :=
      takeStar_plain fun hglob => h.star (by rw [hop]; rfl) (by simpa [hop] using hglob)
    simp only [Option.map_some, Option.some.injEq, hstar, h.version v hversion, hname]
    rw [← hop, ← hversion]

end Normal

theorem normal_of_ofChars (h : ofChars cs = .ok a) : a.Normal := by
  -- What a cut leaves is part of the text before it, so no later field holds a mark cut at earlier.
  rw [ofChars] at h
  obtain ⟨⟨front, useDeps⟩, huseDeps, h⟩ := exists_of_bind_eq_ok h
  obtain ⟨hbracket, hnormal⟩ := of_cutUseDeps huseDeps
  rcases hslot : cutSlot front with ⟨rest, slot⟩
  obtain ⟨hsubset, hcolon, hslots⟩ := of_cutSlot hslot
  rcases hop : takeOperator rest with ⟨op, body⟩
  obtain ⟨hbody, hnone⟩ := of_takeOperator hop
  simp only [hslot, hop] at h
  cases op with
  | none =>
    obtain ⟨⟨category, package⟩, hname, h⟩ := exists_of_bind_eq_ok h
    cases h
    obtain ⟨hcategory, hpackage, hchars⟩ := of_splitName hname
    obtain rfl := hnone rfl
    refine ⟨hcategory, hpackage, rfl, nofun, nofun, ?_, fun s hs => ?_, hnormal⟩
    · rw [bodyChars, nameChars, ← hchars, Option.elim_none, List.append_nil]
      exact ⟨hcolon, fun hmem => hbracket (hsubset hmem)⟩
    · obtain ⟨hs, hdouble⟩ := hslots s hs
      exact ⟨fun hmem => hbracket (hs hmem), hdouble⟩
  | some op =>
    obtain ⟨⟨op', text⟩, hstar, h⟩ := exists_of_bind_eq_ok h
    obtain ⟨⟨name, version⟩, hversion, h⟩ := exists_of_bind_eq_ok h
    obtain ⟨⟨category, package⟩, hname, h⟩ := exists_of_bind_eq_ok h
    cases h
    obtain ⟨hcategory, hpackage, hchars⟩ := of_splitName hname
    obtain ⟨htext, hlast⟩ := of_takeStar hstar
    have hrest : text ⊆ rest := fun c hc => hbody (htext hc)
    have hbodyChars : name ++ '-' :: version.text.toList = text := (of_splitVersion hversion).symm
    subst hchars
    refine ⟨hcategory, hpackage, rfl, ?_, fun _ hop' => ?_, ?_, fun s hs => ?_, hnormal⟩
    · rintro v ⟨⟩
      rw [bodyChars, nameChars, Option.elim_some, hbodyChars]
      exact hversion
    · rw [bodyChars, nameChars, Option.elim_some, hbodyChars]
      exact hlast fun hglob => hop' (congrArg some hglob)
    · rw [bodyChars, nameChars, Option.elim_some, hbodyChars]
      exact ⟨fun hmem => hcolon (hrest hmem), fun hmem => hbracket (hsubset (hrest hmem))⟩
    · obtain ⟨hs, hdouble⟩ := hslots s hs
      exact ⟨fun hmem => hbracket (hs hmem), hdouble⟩

theorem parse_eq_ok_iff {s : String} : parse s = .ok a ↔ ofChars s.toList = .ok a := by
  rw [parse]
  cases ofChars s.toList <;> simp

theorem normal_of_parse {s : String} (h : parse s = .ok a) : a.Normal :=
  normal_of_ofChars (parse_eq_ok_iff.1 h)

/--
An atom that is read from a text is read from its normal form, with the same fields. It has an
operator exactly if it has a version, and its names do not hold what ends a name.
-/
theorem parse_render {s : String} (h : parse s = .ok a) :
    parse a.render = .ok a ∧ (a.operator.isSome ↔ a.version.isSome) ∧
      ∀ c ∈ ['/', ':', '['], c ∉ a.category.toList ∧ c ∉ a.package.toList := by
  have hnormal := normal_of_parse h
  refine ⟨?_, by rw [hnormal.isSome], fun c hc => ?_⟩
  · rw [parse, render, String.toList_ofList, hnormal.ofChars_chars]
  · have hends : ¬isNameStart c ∧ ¬isCategoryChar c ∧ ¬isPackageChar c := by
      simp only [List.mem_cons, List.not_mem_nil, or_false] at hc
      rcases hc with rfl | rfl | rfl <;> decide
    obtain ⟨hstart, hcategory, hpackage⟩ := hends
    exact ⟨not_mem_of_isName hnormal.category hstart hcategory,
      not_mem_of_isName hnormal.package hstart hpackage⟩

theorem parse_render_oddities : ∃ a,
    parse "!!=dev-libs/foo-2-bar-1.2-r1*:0:x::gentoo[ !-ssl(-)=,--doc]" = .ok a ∧
      a.render = "!=dev-libs/foo-2-bar-1.2-r1*:0:x[!-ssl(-)?,--doc]" ∧ parse a.render = .ok a := by
  have h : ∃ a, parse "!!=dev-libs/foo-2-bar-1.2-r1*:0:x::gentoo[ !-ssl(-)=,--doc]" = .ok a ∧
      a.render = "!=dev-libs/foo-2-bar-1.2-r1*:0:x[!-ssl(-)?,--doc]" :=
    ⟨_, rfl, by decide⟩
  obtain ⟨a, hparse, hrender⟩ := h
  exact ⟨a, hparse, hrender, (parse_render hparse).1⟩

end Atom

end EbuildAudit.Dependency
