import EbuildAudit.Proofs.Dependency.NormalForm
import EbuildAudit.Proofs.Version.Base
import EbuildAudit.Text.Basic

namespace EbuildAudit.Dependency

open Text

/-- The slot that is read in front of a double colon and the name of a repository. -/
def qualifiedSlot (repository : String) : Option String → String
  | none => ":" ++ repository
  | some slot =>
    if slot.toList.getLast? = some ':' then String.ofList slot.toList.dropLast else slot

variable {cs cs' front front' rest repository use : List Char} {slot slot' : Option String}
  {deps : List UseDep}

theorem qualifiedSlot_eq_iff {repository : String} :
    some (qualifiedSlot repository slot) = slot ↔
      ∃ s, slot = some s ∧ s.toList.getLast? ≠ some ':' := by
  cases slot with
  | none => simp
  | some s =>
    rw [qualifiedSlot]
    split
    case isTrue hcolon =>
      refine iff_of_false (fun heq => ?_) (by simp [hcolon])
      have hne : s.toList ≠ [] := by
        rintro hnil
        rw [hnil] at hcolon
        cases hcolon
      have hlength := congrArg (fun s : Option String => (s.getD "").toList.length) heq
      have hpos := List.length_pos_iff.2 hne
      simp only [Option.getD_some, String.toList_ofList, List.length_dropLast] at hlength
      omega
    case isFalse hcolon => exact iff_of_true rfl ⟨s, rfl, hcolon⟩

theorem not_double_of_not_mem (h : ':' ∉ cs) : ¬[':', ':'] <:+: ':' :: cs := by
  rw [List.infix_cons_iff, not_or]
  constructor
  · exact fun hprefix => h ((List.cons_prefix_cons.1 hprefix).2.subset (by simp))
  · exact fun hcolons => h (hcolons.subset (by simp))

theorem cutAt?_qualified (h : ¬[':', ':'] <:+: cs) :
    ∃ after, cutAt? [':', ':'] (cs ++ ':' :: ':' :: rest) =
      some (if cs.getLast? = some ':' then cs.dropLast else cs, after) := by
  by_cases hlast : cs.getLast? = some ':'
  · obtain ⟨before, rfl⟩ := List.getLast?_eq_some_iff.1 hlast
    refine ⟨':' :: rest, ?_⟩
    have hcut := @cutAt?_append [':', ':'] before (':' :: rest) (by simp) h
    simpa using hcut
  · have hends : ¬[':', ':'] <:+: cs ++ [':'] := by
      rw [List.infix_concat_iff, not_or]
      refine ⟨fun hsuffix => hlast ?_, h⟩
      obtain ⟨before, hbefore⟩ := hsuffix
      have hcolons : (before ++ [':']) ++ [':'] = cs ++ [':'] := by simpa using hbefore
      have hcs : before ++ [':'] = cs := List.append_inj_left' hcolons rfl
      rw [← hcs]
      simp
    rw [if_neg hlast]
    exact ⟨rest, cutAt?_append (by simp) hends⟩

theorem cutSlot_qualified (hdouble : ¬[':', ':'] <:+: cs) (hrepository : ':' ∉ repository)
    (h : Atom.cutSlot cs = (rest, slot)) :
    Atom.cutSlot (cs ++ ':' :: ':' :: repository) =
      (rest, some (qualifiedSlot (String.ofList repository) slot)) := by
  rw [Atom.cutSlot] at h
  split at h
  case h_1 hcut =>
    cases h
    have hnone : cutAt? [':', ':'] (':' :: repository) = none :=
      (cutAt?_eq_none_iff (by simp)).2 (not_double_of_not_mem hrepository)
    rw [Atom.cutSlot, cutAt?_singleton (cutAt?_singleton_eq_none.1 hcut)]
    simp only [hnone, qualifiedSlot]
    congr 2
    exact String.toList_inj.1 (by simp)
  case h_2 before after hcut =>
    obtain ⟨rfl, hbefore⟩ := cutAt?_eq_some (List.cons_ne_nil _ _) hcut
    have hafter : ¬[':', ':'] <:+: after := fun hcolons =>
      hdouble (hcolons.trans ⟨before ++ [':'], [], by simp⟩)
    rw [(cutAt?_eq_none_iff (by simp)).2 hafter] at h
    cases h
    obtain ⟨remainder, hqualified⟩ := @cutAt?_qualified after repository hafter
    have happend : rest ++ ([':'] ++ after) ++ ':' :: ':' :: repository =
        rest ++ ':' :: (after ++ ':' :: ':' :: repository) := by simp
    rw [Atom.cutSlot, happend, cutAt?_singleton (cutAt?_singleton_eq_none.1 hbefore)]
    simp only [hqualified, qualifiedSlot, String.toList_ofList]
    split <;> rfl

theorem cutUseDeps_of_head? (hfront : '[' ∉ front) (huse : ∀ c ∈ use.head?, c = '[') :
    Atom.cutUseDeps (front ++ use) = (Atom.cutUseDeps use).map fun cut => (front, cut.2) := by
  cases use with
  | nil =>
    rw [List.append_nil, Atom.cutUseDeps, cutAt?_singleton_eq_none.2 hfront]
    rfl
  | cons c after =>
    obtain rfl := huse c rfl
    have hself : cutAt? ['['] ('[' :: after) = some ([], after) :=
      cutAt?_singleton List.not_mem_nil
    rw [Atom.cutUseDeps, Atom.cutUseDeps, cutAt?_singleton hfront, hself]
    simp only
    split
    · split <;> rfl
    · rfl

namespace Atom

variable {a : Atom}

theorem ofChars_of_cutSlot (hblocker : cs.head? = some '!' ↔ cs'.head? = some '!')
    (hdeps : cutUseDeps (cs.dropWhile (· = '!')) = .ok (front, deps))
    (hdeps' : cutUseDeps (cs'.dropWhile (· = '!')) = .ok (front', deps))
    (hslot : cutSlot front = (rest, slot)) (hslot' : cutSlot front' = (rest, slot'))
    (h : ofChars cs = .ok a) : a.slot = slot ∧ ofChars cs' = .ok { a with slot := slot' } := by
  simp only [ofChars, hdeps, hslot, bind, Except.bind] at h
  simp only [ofChars, hdeps', hslot', bind, Except.bind, ← hblocker]
  rcases hop : takeOperator rest with ⟨op, body⟩
  rw [hop] at h
  cases op with
  | none =>
    simp only at h ⊢
    cases hname : splitName body with
    | error fault => rw [hname] at h; cases h
    | ok names =>
      rw [hname] at h
      cases h
      exact ⟨rfl, rfl⟩
  | some op =>
    simp only at h ⊢
    cases hstar : takeStar op body with
    | error fault => rw [hstar] at h; cases h
    | ok starred =>
      rw [hstar] at h
      simp only at h ⊢
      cases hversion : splitVersion starred.2 with
      | error fault => rw [hversion] at h; cases h
      | ok named =>
        rw [hversion] at h
        simp only at h ⊢
        cases hname : splitName named.1 with
        | error fault => rw [hname] at h; cases h
        | ok names =>
          rw [hname] at h
          cases h
          exact ⟨rfl, rfl⟩

theorem head?_qualified (huse : ∀ c ∈ use.head?, c = '[') :
    (front ++ use).head? = some '!' ↔
      ((front ++ ':' :: ':' :: repository) ++ use).head? = some '!' := by
  cases front with
  | nil =>
    refine iff_of_false (fun hhead => ?_) (by simp)
    exact absurd (huse '!' hhead) (by decide)
  | cons c front => rfl

theorem ofChars_qualified (h : ofChars (front ++ use) = .ok a) (hfront : '[' ∉ front)
    (hdouble : ¬[':', ':'] <:+: front) (huse : ∀ c ∈ use.head?, c = '[')
    (hcolon : ':' ∉ repository) (hbracket : '[' ∉ repository) :
    ofChars ((front ++ ':' :: ':' :: repository) ++ use) =
      .ok { a with slot := some (qualifiedSlot (String.ofList repository) a.slot) } := by
  have hmark : ∀ c ∈ use.head?, ¬decide (c = '!') := by
    intro c hc
    rw [huse c hc]
    decide
  have hdrop := @dropWhile_append_of_head? _ front _ hmark
  have hdrop' := @dropWhile_append_of_head? _ (front ++ ':' :: ':' :: repository) _ hmark
  rw [@dropWhile_append_of_head? _ front _ (by simp)] at hdrop'
  have hsuffix := List.dropWhile_suffix (l := front) (fun c => decide (c = '!'))
  generalize front.dropWhile (· = '!') = body at hdrop hdrop' hsuffix
  have hbody : '[' ∉ body := fun hmem => hfront (hsuffix.subset hmem)
  have hbody' : '[' ∉ body ++ ':' :: ':' :: repository := by simp [hbody, hbracket]
  obtain ⟨⟨before, deps⟩, hcut, -⟩ := exists_of_bind_eq_ok h
  rw [hdrop, cutUseDeps_of_head? hbody huse] at hcut
  cases hdeps : cutUseDeps use with
  | error fault => rw [hdeps] at hcut; cases hcut
  | ok cut =>
    rcases hslot : cutSlot body with ⟨rest, slot⟩
    have hdouble' : ¬[':', ':'] <:+: body := fun hcolons =>
      hdouble (hcolons.trans hsuffix.isInfix)
    have hslot' := cutSlot_qualified hdouble' hcolon hslot
    obtain ⟨rfl, hread⟩ := ofChars_of_cutSlot (head?_qualified huse)
      (by rw [hdrop, cutUseDeps_of_head? hbody huse, hdeps]; rfl)
      (by rw [hdrop', cutUseDeps_of_head? hbody' huse, hdeps]; rfl) hslot hslot' h
    exact hread

variable {front use repository : String}

/--
An atom that is read with nothing or use dependencies after its front is read with a double colon and
the name of a repository between the two as well, and no field but the slot is touched. So it is the
same atom exactly if it has a slot, and one that does not end with a colon.
-/
theorem parse_qualified_iff (h : parse (front ++ use) = .ok a) (hfront : '[' ∉ front.toList)
    (hdouble : ¬occursIn "::" front) (huse : ∀ c ∈ use.toList.head?, c = '[')
    (hrepository : ':' ∉ repository.toList ∧ '[' ∉ repository.toList) :
    parse (front ++ "::" ++ repository ++ use) =
        .ok { a with slot := some (qualifiedSlot repository a.slot) } ∧
      (parse (front ++ "::" ++ repository ++ use) = .ok a ↔
        ∃ slot, a.slot = some slot ∧ slot.toList.getLast? ≠ some ':') := by
  obtain ⟨hcolon, hbracket⟩ := hrepository
  have hparse : parse (front ++ "::" ++ repository ++ use) =
      .ok { a with slot := some (qualifiedSlot repository a.slot) } := by
    rw [parse_eq_ok_iff, String.toList_append] at h
    rw [parse_eq_ok_iff]
    have hcolons : ¬[':', ':'] <:+: front.toList := by
      rwa [← cutAt?_eq_none_iff (by simp), ← Option.not_isSome_iff_eq_none]
    simpa using ofChars_qualified h hfront hcolons huse hcolon hbracket
  refine ⟨hparse, ?_⟩
  rw [hparse, ← qualifiedSlot_eq_iff, Except.ok.injEq]
  constructor
  · exact fun heq => congrArg Atom.slot heq
  · intro heq
    rw [heq]

theorem parse_qualified_iff_slotted : ∃ a, parse "!=a/b-1.2*:0/1[c(+),!d?]" = .ok a ∧
    parse "!=a/b-1.2*:0/1::gen-too_2[c(+),!d?]" = .ok a := by
  have ha : ∃ a, parse ("!=a/b-1.2*:0/1" ++ "[c(+),!d?]") = .ok a ∧ a.slot = some "0/1" :=
    ⟨_, rfl, rfl⟩
  obtain ⟨a, ha, hslot⟩ := ha
  have hname : ':' ∉ "gen-too_2".toList ∧ '[' ∉ "gen-too_2".toList := by decide
  have huse : ∀ c ∈ "[c(+),!d?]".toList.head?, c = '[' := by
    rintro c ⟨⟩
    rfl
  obtain ⟨-, hsame⟩ := parse_qualified_iff ha (by decide) (by decide) huse hname
  exact ⟨a, ha, hsame.2 ⟨"0/1", hslot, by decide⟩⟩

/-- A slot that the text does not have. -/
theorem not_parse_qualified_withoutSlot : ∃ a, parse "a/b" = .ok a ∧ a.slot = none ∧
    parse "a/b::gentoo" ≠ .ok a ∧
    parse "a/b::gentoo" = .ok { a with slot := some ":gentoo" } := by
  have ha : ∃ a, parse "a/b" = .ok a ∧ a.slot = none ∧
      parse "a/b::gentoo" = .ok { a with slot := some ":gentoo" } := ⟨_, rfl, rfl, rfl⟩
  obtain ⟨a, ha, hslot, hqualified⟩ := ha
  refine ⟨a, ha, hslot, fun hsame => ?_, hqualified⟩
  rw [hqualified] at hsame
  have hslots := congrArg slot (Except.ok.inj hsame)
  rw [hslot] at hslots
  cases hslots

end Atom

end EbuildAudit.Dependency
