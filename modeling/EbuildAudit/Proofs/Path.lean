import EbuildAudit.Path
import EbuildAudit.Proofs.Text.Pieces
import Mathlib.Data.List.Basic

namespace EbuildAudit

/-- A text that is one name on a path, and none with a meaning of its own. -/
structure FileTree.IsName (name : String) : Prop where
  nonempty : name ≠ ""
  noSlash : '/' ∉ name.toList
  noDot : name ≠ "."
  noDots : name ≠ ".."

open FileTree (IsName)

instance (name : String) : Decidable (IsName name) :=
  decidable_of_iff (name ≠ "" ∧ '/' ∉ name.toList ∧ name ≠ "." ∧ name ≠ "..")
    ⟨fun h => ⟨h.1, h.2.1, h.2.2.1, h.2.2.2⟩,
      fun h => ⟨h.nonempty, h.noSlash, h.noDot, h.noDots⟩⟩

namespace Path

variable {dir path name part rel stem ext : String}

theorem splitOn_part (h : '/' ∉ part.toList) : Text.splitOn '/' part = [part] := by
  rw [Text.splitOn, List.splitOn_eq_singleton h, List.map_cons, List.map_nil, String.ofList_toList]

theorem splitOn_slash (dir rel : String) :
    Text.splitOn '/' (dir ++ "/" ++ rel) = Text.splitOn '/' dir ++ Text.splitOn '/' rel := by
  have hchars : (dir ++ "/" ++ rel).toList = dir.toList ++ '/' :: rel.toList := by simp
  rw [Text.splitOn, Text.splitOn, Text.splitOn, hchars, List.splitOn_append_cons_self,
    List.map_append]

theorem isAbsolute_append {s : String} (hdir : dir ≠ "") :
    isAbsolute (dir ++ s) = isAbsolute dir := by
  have hne : dir.toList ≠ [] := by simpa using hdir
  rw [isAbsolute, isAbsolute, String.toList_append, List.head?_append_of_ne_nil _ hne]

theorem isAbsolute_part (h : '/' ∉ part.toList) : isAbsolute part = false := by
  rw [isAbsolute, decide_eq_false_iff_not]
  exact fun hhead => h (List.mem_of_head? hhead)

def parts (dir : String) : List String :=
  if dir.toList.getLast? = some '/' then (Text.splitOn '/' dir).dropLast else Text.splitOn '/' dir

theorem parts_slash (dir : String) : parts (dir ++ "/") = Text.splitOn '/' dir := by
  have hlast : (dir ++ "/").toList.getLast? = some '/' := by simp
  have hsplit := splitOn_slash dir ""
  have hempty : Text.splitOn '/' "" = [""] := rfl
  rw [String.append_empty, hempty] at hsplit
  rw [parts, if_pos hlast, hsplit, List.dropLast_concat]

theorem exists_of_getLast?_slash (h : dir.toList.getLast? = some '/') :
    ∃ front, dir = front ++ "/" := by
  obtain ⟨before, hbefore⟩ := List.getLast?_eq_some_iff.1 h
  refine ⟨String.ofList before, ?_⟩
  rw [← String.toList_inj, hbefore]
  simp

theorem splitOn_eq_parts (dir : String) : Text.splitOn '/' dir =
    parts dir ++ if dir.toList.getLast? = some '/' then [""] else [] := by
  by_cases hlast : dir.toList.getLast? = some '/'
  · obtain ⟨front, rfl⟩ := exists_of_getLast?_slash hlast
    have hsplit := splitOn_slash front ""
    rw [String.append_empty] at hsplit
    rw [if_pos hlast, hsplit, parts_slash]
    rfl
  · rw [if_neg hlast, parts, if_neg hlast, List.append_nil]

theorem parts_of_getLast? (h : dir.toList.getLast? ≠ some '/') : parts dir = Text.splitOn '/' dir :=
  if_neg h

theorem parts_below (hpart : part ≠ "") (h : '/' ∉ part.toList) :
    parts (dir ++ "/" ++ part) = Text.splitOn '/' dir ++ [part] := by
  have hlast : (dir ++ "/" ++ part).toList.getLast? ≠ some '/' := by
    rw [String.toList_append, List.getLast?_append_of_ne_nil _ (by simpa using hpart)]
    exact fun hslash => h (List.mem_of_getLast? hslash)
  rw [parts_of_getLast? hlast, splitOn_slash, splitOn_part h]

theorem parts_ne_nil (dir : String) : parts dir ≠ [] := by
  have hsplit (s : String) : Text.splitOn '/' s ≠ [] := by simp [Text.splitOn, List.splitOn_ne_nil]
  by_cases hlast : dir.toList.getLast? = some '/'
  · obtain ⟨front, rfl⟩ := exists_of_getLast?_slash hlast
    rw [parts_slash]
    exact hsplit front
  · rw [parts_of_getLast? hlast]
    exact hsplit dir

theorem head?_parts (dir : String) : (parts dir).head? = (Text.splitOn '/' dir).head? := by
  rw [splitOn_eq_parts, List.head?_append_of_ne_nil _ (parts_ne_nil dir)]

theorem of_mem_parts {c : Char} (h : part ∈ parts dir) (hc : c ∈ part.toList) :
    c ∈ dir.toList ∧ c ≠ '/' := by
  have hmem : part ∈ Text.splitOn '/' dir := by
    rw [splitOn_eq_parts]
    exact List.mem_append_left _ h
  exact Text.of_mem_toList_of_mem_splitOn hmem hc

theorem noSlash_of_mem_parts (h : part ∈ parts dir) : '/' ∉ part.toList :=
  fun hmem => (of_mem_parts h hmem).2 rfl

theorem parts_of_isAbsolute (h : isAbsolute dir = true) : parts dir = "" :: (parts dir).tail := by
  obtain ⟨cs, hcs⟩ : ∃ cs, dir.toList = '/' :: cs := by
    rw [isAbsolute, decide_eq_true_iff] at h
    exact List.head?_eq_some_iff.1 h
  obtain rfl : dir = "" ++ "/" ++ String.ofList cs := by
    rw [← String.toList_inj, hcs]
    simp
  have hhead := head?_parts ("" ++ "/" ++ String.ofList cs)
  rw [splitOn_slash] at hhead
  exact List.eq_cons_of_mem_head? hhead

theorem join_ne_empty (hrel : rel ≠ "") : join dir rel ≠ "" := by
  rw [join]
  split
  · exact hrel
  · split <;> simp [hrel]

theorem exists_join_eq (hdir : dir ≠ "") (hrel : isAbsolute rel = false) :
    ∃ front, join dir rel = front ++ "/" ++ rel ∧ parts dir = Text.splitOn '/' front ∧
      ∀ c ∈ front.toList, c ∈ dir.toList := by
  rw [join, hrel, Bool.false_or, if_neg (by simpa using hdir)]
  by_cases hlast : dir.toList.getLast? = some '/'
  · obtain ⟨front, rfl⟩ := exists_of_getLast?_slash hlast
    exact ⟨front, by rw [if_pos hlast], parts_slash front, by simp +contextual⟩
  · exact ⟨dir, by rw [if_neg hlast], parts_of_getLast? hlast, fun _ => id⟩

theorem splitOn_join (hdir : dir ≠ "") (hrel : isAbsolute rel = false) :
    Text.splitOn '/' (join dir rel) = parts dir ++ Text.splitOn '/' rel := by
  obtain ⟨front, hjoin, hparts, -⟩ := exists_join_eq hdir hrel
  rw [hjoin, splitOn_slash, hparts]

theorem parts_join (hdir : dir ≠ "") (h : '/' ∉ part.toList) :
    parts (join dir part) = parts dir ++ if part = "" then [] else [part] := by
  obtain ⟨front, hjoin, hparts, -⟩ := exists_join_eq hdir (isAbsolute_part h)
  rw [hjoin, hparts]
  split
  case isTrue hempty => rw [hempty, String.append_empty, parts_slash, List.append_nil]
  case isFalse hne => rw [parts_below hne h]

theorem isAbsolute_join (hdir : dir ≠ "") (hrel : isAbsolute rel = false) :
    isAbsolute (join dir rel) = isAbsolute dir := by
  rw [join, hrel, Bool.false_or, if_neg (by simpa using hdir)]
  split
  · exact isAbsolute_append hdir
  · rw [String.append_assoc, isAbsolute_append hdir]

inductive EndsWith (name : String) : String → Prop
  | alone : EndsWith name name
  | below (dir : String) : EndsWith name (dir ++ "/" ++ name)

theorem EndsWith.nonempty (h : IsName name) (hpath : EndsWith name path) : path ≠ "" := by
  have hname := h.nonempty
  cases hpath <;> simp [hname]

theorem EndsWith.getLast?_ne_slash (h : IsName name) (hpath : EndsWith name path) :
    path.toList.getLast? ≠ some '/' := by
  have hne : name.toList ≠ [] := by simpa using h.nonempty
  have hlast : path.toList.getLast? = name.toList.getLast? := by
    cases hpath with
    | alone => rfl
    | below dir => rw [String.toList_append, List.getLast?_append_of_ne_nil _ hne]
  rw [hlast]
  exact fun hslash => h.noSlash (List.mem_of_getLast? hslash)

theorem EndsWith.join_eq (h : IsName name) (hdir : EndsWith name dir)
    (hrel : isAbsolute rel = false) : join dir rel = dir ++ "/" ++ rel := by
  rw [join, hrel, Bool.false_or, if_neg (by simpa using hdir.nonempty h),
    if_neg (hdir.getLast?_ne_slash h)]

theorem endsWith_join (hdir : dir ≠ "") (h : IsName name) : EndsWith name (join dir name) := by
  obtain ⟨front, hjoin, -⟩ := exists_join_eq hdir (isAbsolute_part h.noSlash)
  rw [hjoin]
  exact .below front

theorem component?_name (h : IsName name) : component? name = some (.name name) := by
  rw [component?.eq_def]
  split
  case h_1 => exact absurd rfl h.nonempty
  case h_2 => exact absurd rfl h.noDot
  case h_3 => exact absurd rfl h.noDots
  case h_4 => rfl

theorem fileName?_of_endsWith (h : IsName name) (hpath : EndsWith name path) :
    fileName? path = some name := by
  have hlast : ∃ front, components path = front ++ [.name name] := by
    cases hpath with
    | alone =>
      rw [components, splitOn_part h.noSlash, List.filterMap_cons, component?_name h,
        List.filterMap_nil]
      exact ⟨_, rfl⟩
    | below dir =>
      rw [components, splitOn_slash, splitOn_part h.noSlash, List.filterMap_append,
        List.filterMap_cons, component?_name h, List.filterMap_nil, ← List.append_assoc]
      exact ⟨_, rfl⟩
  obtain ⟨front, hcomponents⟩ := hlast
  rw [fileName?, hcomponents, List.getLast?_concat]

theorem trimBack_name (h : IsName name) (rest : List Char) :
    trimBack (name.toList.reverse ++ rest) = name.toList.reverse ++ rest := by
  have hne : name.toList.reverse ≠ [] := by simpa using h.nonempty
  have hdot : name.toList.reverse ≠ ['.'] := by
    intro hdot
    refine h.noDot ?_
    rw [← String.toList_inj, ← List.reverse_inj, hdot]
    rfl
  have hslash : '/' ∉ name.toList.reverse := by simpa using h.noSlash
  rw [trimBack.eq_def]
  split
  case h_1 heq =>
    cases hname : name.toList.reverse with
    | nil => exact absurd hname hne
    | cons c cs =>
      rw [hname, List.cons_append, List.cons.injEq] at heq
      rw [hname, heq.1] at hslash
      exact absurd List.mem_cons_self hslash
  case h_2 heq =>
    match hname : name.toList.reverse with
    | [] => exact absurd hname hne
    | [c] =>
      rw [hname, List.cons_append, List.cons.injEq] at heq
      exact absurd (hname.trans (by rw [heq.1])) hdot
    | c :: d :: cs =>
      rw [hname, List.cons_append, List.cons_append, List.cons.injEq, List.cons.injEq] at heq
      rw [hname, heq.2.1] at hslash
      exact absurd (List.mem_cons_of_mem _ List.mem_cons_self) hslash
  case h_3 => rfl

theorem trimBack_of_endsWith (h : IsName name) (hpath : EndsWith name path) :
    trimBack path.toList.reverse = path.toList.reverse := by
  cases hpath with
  | alone =>
    have htrim := trimBack_name h []
    rwa [List.append_nil] at htrim
  | below dir => simpa using trimBack_name h ('/' :: dir.toList.reverse)

theorem parent?_join {last : String} (hlast : IsName last) (hdir : EndsWith last dir)
    (h : IsName name) : parent? (join dir name) = some dir := by
  have hback : (dir ++ "/" ++ name).toList.reverse =
      name.toList.reverse ++ '/' :: dir.toList.reverse := by simp
  have hslash : ∀ c ∈ name.toList.reverse, (c != '/') = true := by
    intro c hc
    rw [bne_iff_ne]
    rintro rfl
    exact h.noSlash (List.mem_reverse.1 hc)
  have hlong : (name.toList.reverse ++ '/' :: dir.toList.reverse == ['/']) = false := by
    rw [beq_eq_false_iff_ne]
    intro heq
    have hlength := congrArg List.length heq
    have hname : name.toList.reverse.length ≠ 0 := by simpa using h.nonempty
    simp only [List.length_append, List.length_cons, List.length_nil] at hlength
    omega
  have htrim : trimBack ('/' :: dir.toList.reverse) = dir.toList.reverse := by
    have hsame := trimBack_of_endsWith hlast hdir
    cases hchars : dir.toList.reverse with
    | nil => exact absurd (by simpa using hchars) (hdir.nonempty hlast)
    | cons c cs =>
      rw [hchars] at hsame
      rw [trimBack, hsame]
  rw [hdir.join_eq hlast (isAbsolute_part h.noSlash), parent?, hback, trimBack_name h,
    List.dropWhile_append_of_pos hslash]
  simp [hlong, htrim]

end Path

end EbuildAudit
