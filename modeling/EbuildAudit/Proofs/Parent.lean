import EbuildAudit.Proofs.Path
import Mathlib.Data.List.TakeWhile

namespace EbuildAudit.Path

variable {p q name : String} {back : List Char}

def names (p : String) : List String :=
  (parts p).filter fun part => part ≠ "" ∧ part ≠ "."

def isDotted (p : String) : Bool :=
  (parts p).head? = some "."

structure Alike (p q : String) : Prop where
  names : names p = names q
  isAbsolute : isAbsolute p = isAbsolute q
  isDotted : isDotted p = isDotted q

namespace Alike

theorem refl (p : String) : Alike p p :=
  ⟨rfl, rfl, rfl⟩

theorem trans {r : String} (h : Alike p q) (h' : Alike q r) : Alike p r :=
  ⟨h.names.trans h'.names, h.isAbsolute.trans h'.isAbsolute, h.isDotted.trans h'.isDotted⟩

end Alike

theorem names_splitOn (p : String) :
    (Text.splitOn '/' p).filter (fun part => part ≠ "" ∧ part ≠ ".") = names p := by
  rw [splitOn_eq_parts, List.filter_append, names]
  split <;> exact List.append_nil _

theorem alike_slash (h : p ≠ "") : Alike (p ++ "/") p where
  names := by rw [names, parts_slash, names_splitOn]
  isAbsolute := isAbsolute_append h
  isDotted := by rw [isDotted, parts_slash, ← head?_parts, isDotted]

theorem isDotted_below (hname : name ≠ "") (h : '/' ∉ name.toList) :
    isDotted (p ++ "/" ++ name) = isDotted (p ++ "/") := by
  have hne : Text.splitOn '/' p ≠ [] := by
    rw [← parts_slash]
    exact parts_ne_nil _
  rw [isDotted, isDotted, parts_below hname h, parts_slash, List.head?_append_of_ne_nil _ hne]

theorem isAbsolute_below : isAbsolute (p ++ "/" ++ name) = isAbsolute (p ++ "/") :=
  isAbsolute_append (by simp)

theorem alike_dot (p : String) : Alike (p ++ "/" ++ ".") (p ++ "/") where
  names := by
    rw [names, names, parts_below (by decide) (by decide), parts_slash, List.filter_append]
    exact List.append_nil _
  isAbsolute := isAbsolute_below
  isDotted := isDotted_below (by decide) (by decide)

theorem alike_trimBack (back : List Char) :
    Alike (String.ofList back.reverse) (String.ofList (trimBack back).reverse) := by
  fun_induction trimBack back with
  | case1 c cs ih =>
    have hchars : String.ofList ('/' :: c :: cs).reverse =
        String.ofList (c :: cs).reverse ++ "/" := by
      rw [List.reverse_cons, String.ofList_append]
    have hne : String.ofList (c :: cs).reverse ≠ "" := by simp
    rw [hchars]
    exact (alike_slash hne).trans ih
  | case2 cs ih =>
    have hslash : String.ofList ('/' :: cs).reverse = String.ofList cs.reverse ++ "/" := by
      rw [List.reverse_cons, String.ofList_append]
    have hchars : String.ofList ('.' :: '/' :: cs).reverse =
        String.ofList cs.reverse ++ "/" ++ "." := by
      rw [List.reverse_cons, String.ofList_append, hslash]
    rw [hchars]
    rw [hslash] at ih
    exact (alike_dot _).trans ih
  | case3 => exact .refl _

theorem length_trimBack (back : List Char) : (trimBack back).length ≤ back.length := by
  fun_induction trimBack back with
  | case1 c cs ih => exact Nat.le_succ_of_le ih
  | case2 cs ih => exact Nat.le_succ_of_le ih
  | case3 => exact Nat.le_refl _

theorem trimBack_cases (back : List Char) : trimBack back = [] ∨ trimBack back = ['/'] ∨
    ∃ name ≠ [], '/' ∉ name ∧ ∃ rest, trimBack back = name ++ rest ∧
      (rest = [] ∨ name ≠ ['.'] ∧ ∃ front, rest = '/' :: front) := by
  fun_induction trimBack back with
  | case1 c cs ih => exact ih
  | case2 cs ih => exact ih
  | case3 cs hslash hdot =>
    have hsplit : cs.takeWhile (· != '/') ++ cs.dropWhile (· != '/') = cs :=
      List.takeWhile_append_dropWhile
    have hnot : '/' ∉ cs.takeWhile (· != '/') := fun hmem => by
      simpa using List.mem_takeWhile_imp hmem
    by_cases hnil : cs.takeWhile (· != '/') = []
    · cases cs with
      | nil => exact .inl rfl
      | cons c cs =>
        obtain rfl : c = '/' := by simpa [List.takeWhile_cons] using hnil
        cases cs with
        | nil => exact .inr (.inl rfl)
        | cons d cs => exact (hslash d cs rfl).elim
    · refine .inr (.inr ⟨_, hnil, hnot, _, hsplit.symm, ?_⟩)
      cases hrest : cs.dropWhile (· != '/') with
      | nil => exact .inl rfl
      | cons c front =>
        have hstop := List.head?_dropWhile_not (· != '/') cs
        rw [hrest, List.head?_cons] at hstop
        obtain rfl : c = '/' := bne_eq_false_iff_eq.1 hstop
        refine .inr ⟨fun hname => hdot front ?_, front, rfl⟩
        rw [← hsplit, hname, hrest]
        rfl

theorem trimBack_eq_nil (h : trimBack back = []) : back = [] := by
  fun_induction trimBack back with
  | case1 c cs ih => exact absurd (ih h) (List.cons_ne_nil c cs)
  | case2 cs ih => exact absurd (ih h) (List.cons_ne_nil '/' cs)
  | case3 => exact h

/-- What a path has for a parent. -/
inductive HasParent (p : String) : Option String → Prop
  | top (hnames : names p = []) (habsolute : isAbsolute p) : HasParent p none
  | empty (hempty : p = "") : HasParent p none
  | dot (hnames : names p = []) (habsolute : isAbsolute p = false) (hdotted : isDotted p) :
    HasParent p (some "")
  | up {q : String} (hne : names p ≠ []) (hnames : names q = (names p).dropLast)
    (habsolute : isAbsolute q = isAbsolute p) (hdotted : isDotted q = isDotted p) :
    HasParent p (some q)

theorem hasParent_alone (hne : name ≠ "") (h : '/' ∉ name.toList) (halike : Alike p name) :
    HasParent p (some "") := by
  have hparts : parts name = [name] := by
    rw [parts_of_getLast? fun hlast => h (List.mem_of_getLast? hlast), splitOn_part h]
  have habsolute : isAbsolute p = false := halike.isAbsolute.trans (isAbsolute_part h)
  by_cases hdot : name = "."
  · subst hdot
    exact .dot halike.names habsolute halike.isDotted
  · have hnames : names p = [name] := by
      rw [halike.names, names, hparts, List.filter_cons_of_pos (by simp [hne, hdot]),
        List.filter_nil]
    have hdotted : isDotted p = false := by
      rw [halike.isDotted, isDotted, hparts]
      simpa using hdot
    refine .up (by simp [hnames]) ?_ (habsolute ▸ rfl) (hdotted ▸ rfl)
    rw [hnames]
    rfl

theorem hasParent_below {front : String} (hne : name ≠ "") (hdot : name ≠ ".")
    (h : '/' ∉ name.toList) (halike : Alike p (front ++ "/" ++ name))
    (hparent : Alike (front ++ "/") q) : HasParent p (some q) := by
  have hnames : names p = names (front ++ "/") ++ [name] := by
    rw [halike.names, names, parts_below hne h, names, parts_slash, List.filter_append,
      List.filter_cons_of_pos (by simp [hne, hdot]), List.filter_nil]
  refine .up (by simp [hnames]) ?_ ?_ ?_
  · rw [hnames, List.dropLast_concat, hparent.names]
  · rw [halike.isAbsolute, isAbsolute_below, hparent.isAbsolute]
  · rw [halike.isDotted, isDotted_below hne h, hparent.isDotted]

theorem parent?_cases (p : String) : (parent? p = none ∧ (p = "" ∨ Alike p "/")) ∨
    ∃ name ≠ [], '/' ∉ name ∧ ∃ rest, Alike p (String.ofList (name ++ rest).reverse) ∧
      (name ++ rest).length ≤ p.length ∧
      (rest = [] ∨ name ≠ ['.'] ∧ ∃ front, rest = '/' :: front) ∧
      parent? p = some (String.ofList (trimBack rest).reverse) := by
  have halike := alike_trimBack p.toList.reverse
  have hlength := length_trimBack p.toList.reverse
  rw [List.reverse_reverse, String.ofList_toList] at halike
  rw [List.length_reverse, String.length_toList] at hlength
  rw [parent?]
  rcases trimBack_cases p.toList.reverse with
    hback | hback | ⟨name, hne, hslash, rest, hback, hrest⟩
  · rw [hback]
    exact .inl ⟨rfl, .inl (by simpa using trimBack_eq_nil hback)⟩
  · rw [hback] at halike ⊢
    exact .inl ⟨rfl, .inr halike⟩
  · have hall : ∀ c ∈ name, (c != '/') = true := by
      intro c hc
      rw [bne_iff_ne]
      rintro rfl
      exact hslash hc
    have hdrop : (name ++ rest).dropWhile (· != '/') = rest := by
      refine Text.dropWhile_append_stop hall fun c hc => ?_
      obtain rfl | ⟨-, front, rfl⟩ := hrest
      · cases hc
      · cases hc
        decide
    have hlong : (name ++ rest == ['/']) = false := by
      rw [beq_eq_false_iff_ne]
      intro heq
      obtain ⟨c, cs, rfl⟩ := List.exists_cons_of_ne_nil hne
      rw [List.cons_append, List.cons.injEq] at heq
      exact hslash (heq.1 ▸ List.mem_cons_self)
    rw [hback] at halike hlength ⊢
    refine .inr ⟨name, hne, hslash, rest, halike, hlength, hrest, ?_⟩
    simp [hne, hlong, hdrop]

theorem hasParent_parent? (p : String) : HasParent p (parent? p) := by
  rcases parent?_cases p with
    ⟨hparent, rfl | halike⟩ | ⟨name, hne, hslash, rest, halike, -, hrest, hparent⟩
  · rw [hparent]
    exact .empty rfl
  · rw [hparent]
    exact .top halike.names halike.isAbsolute
  · have hname : String.ofList name.reverse ≠ "" := by simpa using hne
    have hpart : '/' ∉ (String.ofList name.reverse).toList := by simpa using hslash
    rw [hparent]
    rw [List.reverse_append, String.ofList_append] at halike
    obtain rfl | ⟨hdot, front, rfl⟩ := hrest
    · exact hasParent_alone hname hpart (by simpa using halike)
    · have hdotted : String.ofList name.reverse ≠ "." := by
        rw [ne_eq, ← String.toList_inj, String.toList_ofList]
        exact fun heq => hdot (List.reverse_inj.1 heq)
      have hfront := alike_trimBack ('/' :: front)
      rw [List.reverse_cons, String.ofList_append] at halike hfront
      exact hasParent_below hname hdotted hpart halike hfront

theorem names_of_parent?_eq_none (h : parent? p = none) : names p = [] := by
  have hparent := hasParent_parent? p
  rw [h] at hparent
  cases hparent with
  | top hnames => exact hnames
  | empty hempty => exact hempty ▸ rfl

theorem names_ne_nil (hne : p ≠ "") (habsolute : isAbsolute p = false)
    (hdotted : isDotted p = false) : names p ≠ [] := by
  intro hnames
  have hparent := hasParent_parent? p
  generalize parent? p = parent at hparent
  cases hparent with
  | top _ h => simp [habsolute] at h
  | empty h => exact hne h
  | dot _ _ h => simp [hdotted] at h
  | up h => exact h hnames

theorem length_parent? (h : parent? p = some q) : q.length < p.length := by
  rcases parent?_cases p with ⟨hparent, -⟩ | ⟨name, hne, -, rest, -, hlength, -, hparent⟩
  · rw [hparent] at h
    cases h
  · obtain rfl : String.ofList (trimBack rest).reverse = q := by
      rwa [hparent, Option.some.injEq] at h
    have htrim := length_trimBack rest
    have hpos := List.length_pos_of_ne_nil hne
    rw [List.length_append] at hlength
    rw [String.length_ofList, List.length_reverse]
    omega

def climb (p : String) : List String :=
  p :: match _h : parent? p with
    | none => []
    | some q => climb q
termination_by p.length
decreasing_by exact length_parent? _h

theorem climb_eq (p : String) : climb p = p :: (parent? p).elim [] climb := by
  rw [climb]
  split <;> rename_i h <;> rw [h] <;> rfl

end EbuildAudit.Path
