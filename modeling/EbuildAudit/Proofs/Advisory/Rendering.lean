import EbuildAudit.Advisory.Index
import EbuildAudit.Proofs.Ascending
import EbuildAudit.Proofs.Text.Search

namespace EbuildAudit.Advisory

open Text

/-- A text that can stand in quotes and between tags. -/
def IsPlain (cs : List Char) : Prop :=
  '"' ∉ cs ∧ '<' ∉ cs ∧ '>' ∉ cs

instance (cs : List Char) : Decidable (IsPlain cs) :=
  inferInstanceAs (Decidable ('"' ∉ cs ∧ '<' ∉ cs ∧ '>' ∉ cs))

/-- A text that is one word and has no star in it. -/
def IsBare (s : String) : Prop :=
  s ≠ "" ∧ (∀ c ∈ s.toList, isBlank c = false) ∧ '*' ∉ s.toList

instance (s : String) : Decidable (IsBare s) :=
  letI := s.toList.decidableBAll (isBlank · = false)
  inferInstanceAs (Decidable (s ≠ "" ∧ (∀ c ∈ s.toList, isBlank c = false) ∧ '*' ∉ s.toList))

/-- The operators as they are spelled; any other text is none. -/
def operators : List (String × RangeOp) :=
  [("lt", .lt), ("le", .le), ("eq", .eq), ("ge", .ge), ("gt", .gt),
    ("rlt", .rlt), ("rle", .rle), ("rge", .rge), ("rgt", .rgt)]

theorem RangeOp.parse?_eq_lookup (s : String) : RangeOp.parse? s = operators.lookup s := by
  have hfind (ops : List RangeOp) :
      ops.find? (·.name == s) = (ops.map fun op => (op.name, op)).lookup s := by
    induction ops with
    | nil => rfl
    | cons op ops ih =>
      rw [List.find?_cons, List.map_cons, List.lookup_cons, ih, BEq.comm]
  exact hfind RangeOp.all

structure RangeEntry where
  vulnerable : Bool
  op : String
  version : String
  star : Bool
  op_plain : IsPlain op.toList
  version_plain : IsPlain version.toList
  version_bare : IsBare version

structure PackageEntry where
  name : String
  /-- The architectures, all of them if they are not listed. -/
  arches : Option (List String)
  ranges : List RangeEntry
  name_plain : IsPlain name.toList
  arches_plain : ∀ list ∈ arches, ∀ arch ∈ list, IsPlain arch.toList
  arches_bare : ∀ list ∈ arches, ∀ arch ∈ list, IsBare arch

structure Document where
  id : String
  packages : List PackageEntry
  id_nonempty : id ≠ ""
  id_plain : IsPlain id.toList

def attributeText (name value : List Char) : List Char :=
  name ++ '=' :: '"' :: (value ++ ['"'])

variable {name value rest cs piece : List Char} {c : Char} {r : RangeEntry} {p : PackageEntry}
  {d : Document}

theorem ne_open_of_isBlank (h : isBlank c = true) : c ≠ '<' := by
  rintro rfl
  exact absurd h (by decide)

theorem noOpen_of_blank {gap : List Char} (h : Blank gap) : '<' ∉ gap :=
  fun hmem => ne_open_of_isBlank (h _ hmem) rfl

/-! Attributes. -/

theorem takeQuoted?_append {least : Nat} (hvalue : '"' ∉ value) (hleast : least ≤ value.length) :
    takeQuoted? least (value ++ '"' :: rest) = some (value, rest) := by
  rw [takeQuoted?, cutAt?_singleton hvalue]
  exact if_neg (Nat.not_lt.2 hleast)

theorem takeAttribute?_of_not (h : isAttributeChar c = false) : takeAttribute? (c :: cs) = none := by
  rw [takeAttribute?, List.takeWhile_cons_of_neg (by simp [h])]
  rfl

theorem takeAttribute?_attribute (hne : name ≠ []) (hname : name.all isAttributeChar = true)
    (hvalue : '"' ∉ value) :
    takeAttribute? (attributeText name value ++ rest) = some ((name, value), rest) := by
  have hstop : ∀ c ∈ ('=' :: '"' :: (value ++ '"' :: rest)).head?, ¬isAttributeChar c = true := by
    rintro c hc
    cases hc
    decide
  have hname := List.all_eq_true.1 hname
  have hempty : name.isEmpty = false := by simpa using hne
  have hequals : "=\"".toList.isPrefixOf? ('=' :: '"' :: (value ++ '"' :: rest)) =
      some (value ++ '"' :: rest) := isPrefixOf?_append
  have hwritten : attributeText name value ++ rest = name ++ '=' :: '"' :: (value ++ '"' :: rest) := by
    simp [attributeText]
  rw [takeAttribute?, hwritten, takeWhile_append_stop hname hstop, dropWhile_append_stop hname hstop,
    hempty, hequals]
  simp [takeQuoted?_append hvalue (Nat.zero_le _)]

theorem attributesOf_attribute (hne : name ≠ []) (hname : name.all isAttributeChar = true)
    (hvalue : '"' ∉ value) : attributesOf (attributeText name value ++ rest) =
      (String.ofList name, String.ofList value) :: attributesOf rest := by
  have hlt : rest.length < (attributeText name value ++ rest).length := by
    simp [attributeText]
    omega
  rw [attributesOf, findAll_of_some (takeAttribute?_attribute hne hname hvalue) hlt]
  rfl

theorem attributesOf_cons_of_not (h : isAttributeChar c = false) :
    attributesOf (c :: cs) = attributesOf cs := by
  rw [attributesOf, findAll_cons_of_none (takeAttribute?_of_not h), attributesOf]

theorem takeBlanks?_space (h : ∀ c ∈ cs.head?, ¬isBlank c = true) :
    takeBlanks? (' ' :: cs) = some cs := by
  have hspace : isBlank ' ' = true := by decide
  have hdrop : cs.dropWhile isBlank = cs := dropWhile_append_stop (List.forall_mem_nil _) h
  rw [takeBlanks?, if_pos hspace, hdrop]

theorem attributesOf_nil : attributesOf [] = [] := by
  rw [attributesOf, findAll_nil]
  rfl

/-! Range elements. -/

namespace RangeEntry

def tag (r : RangeEntry) : List Char :=
  if r.vulnerable then "vulnerable".toList else "unaffected".toList

def text (r : RangeEntry) : List Char :=
  r.version.toList ++ if r.star then ['*'] else []

def attributes (r : RangeEntry) : List Char :=
  attributeText "range".toList r.op.toList

def close (r : RangeEntry) : List Char :=
  '<' :: '/' :: (r.tag ++ ['>'])

def render (r : RangeEntry) (before after : List Char) : List Char :=
  '<' :: (r.tag ++ ' ' :: (r.attributes ++ '>' :: (before ++ (r.text ++ (after ++ r.close)))))

def Renders (r : RangeEntry) (cs : List Char) : Prop :=
  ∃ before after, Blank before ∧ Blank after ∧ cs = r.render before after

def element (r : RangeEntry) : RangeElement :=
  ⟨r.vulnerable, r.attributes, r.text⟩

def range? (r : RangeEntry) : Option VersionRange := do
  some ⟨← operators.lookup r.op, ← Version.parse? r.version, r.star⟩

theorem element_vulnerable (r : RangeEntry) : r.element.vulnerable = r.vulnerable :=
  rfl

theorem takeSense?_tag : takeSense? (r.tag ++ rest) = some (r.vulnerable, rest) := by
  rw [tag, takeSense?]
  cases r.vulnerable <;> simp [List.isPrefixOf?]

theorem attributes_noClose : '>' ∉ r.attributes := by
  simp [attributes, attributeText, r.op_plain.2.2]

theorem text_isRangeChar : ∀ c ∈ r.text, isRangeChar c = true := by
  have hversion : ∀ c ∈ r.version.toList, isRangeChar c = true := by
    intro c hc
    have hopen : c ≠ '<' := ne_of_mem_of_not_mem hc r.version_plain.2.1
    simp [isRangeChar, hopen, r.version_bare.2.1 c hc]
  have hstar : isRangeChar '*' = true := by decide
  rw [text]
  cases r.star <;> simpa [hstar, or_imp, forall_and] using hversion

theorem takeStar_text : takeStar r.text = (r.star, r.version.toList) := by
  rw [text, takeStar.eq_def]
  cases r.star with
  | true => simp
  | false =>
    split
    case h_1 back hback =>
      have hmem : '*' ∈ r.version.toList.reverse := by
        simp at hback
        simp [hback]
      exact absurd (List.mem_reverse.1 hmem) r.version_bare.2.2
    case h_2 => simp

theorem element_range? (r : RangeEntry) : r.element.range? = r.range? := by
  have hattributes : attributesOf r.attributes = [("range", r.op)] := by
    have hread : attributesOf (r.attributes ++ []) =
        (String.ofList "range".toList, String.ofList r.op.toList) :: attributesOf [] :=
      attributesOf_attribute (by decide) (by decide) r.op_plain.1
    rwa [List.append_nil, attributesOf_nil, String.ofList_toList, String.ofList_toList] at hread
  rw [RangeElement.range?, element, hattributes, takeStar_text]
  simp [range?, RangeOp.parse?_eq_lookup, Version.parse?]

theorem takeRange?_of_not (h : c ≠ '<') : takeRange? (c :: cs) = none := by
  rw [takeRange?]
  simp [List.isPrefixOf?, Ne.symm h]

theorem takeRange?_render {before after : List Char} (hbefore : Blank before) (hafter : Blank after) :
    takeRange? (r.render before after ++ rest) = some (r.element, rest) := by
  have hwritten : r.render before after ++ rest = '<' :: (r.tag ++ ' ' :: (r.attributes ++ '>' ::
      (before ++ (r.text ++ (after ++ (r.close ++ rest)))))) := by
    simp [render]
  have hblanks (cs : List Char) : takeBlanks? (' ' :: (r.attributes ++ cs)) =
      some (r.attributes ++ cs) := by
    refine takeBlanks?_space fun c hc => ?_
    obtain rfl : 'r' = c := by simpa [attributes, attributeText] using hc
    decide
  have hempty : r.text.isEmpty = false := by
    simp [text, r.version_bare.1]
  have hbegin : ∀ c ∈ (r.text ++ (after ++ (r.close ++ rest))).head?, ¬isBlank c = true := by
    intro c hc
    rw [List.head?_append_of_ne_nil _ (by simpa using hempty)] at hc
    have hchar := r.text_isRangeChar c (List.mem_of_head? hc)
    simp only [isRangeChar, Bool.and_eq_true, Bool.not_eq_true'] at hchar
    simp [hchar.2]
  have hend : ∀ c ∈ (after ++ (r.close ++ rest)).head?, ¬isRangeChar c = true := by
    intro c hc
    cases after with
    | nil =>
      cases hc
      decide
    | cons blank after =>
      have hblank := hafter blank List.mem_cons_self
      cases hc
      simp [isRangeChar, hblank]
  have hclose : ∀ c ∈ (r.close ++ rest).head?, ¬isBlank c = true := by
    intro c hc
    cases hc
    decide
  have hslash : "</".toList.isPrefixOf? (r.close ++ rest) = some (r.tag ++ '>' :: rest) :=
    List.isPrefixOf?_eq_some_iff_append_eq.2 (by simp [close])
  have hsingle (c : Char) (cs : List Char) : [c].isPrefixOf? (c :: cs) = some cs :=
    isPrefixOf?_append
  rw [hwritten, takeRange?]
  simp only [Option.bind_eq_bind, Option.bind_some, hsingle, takeSense?_tag, hblanks,
    cutAt?_singleton r.attributes_noClose, dropWhile_append_stop hbefore hbegin,
    takeWhile_append_stop r.text_isRangeChar hend, hempty,
    dropWhile_append_stop r.text_isRangeChar hend, dropWhile_append_stop hafter hclose, hslash]
  rfl

theorem render_skips {before after : List Char} (hbefore : Blank before) (hafter : Blank after) :
    Skips "</package>".toList (r.render before after) := by
  have htag : '<' ∉ r.tag := by
    rw [tag]
    cases r.vulnerable <;> decide
  have hattributes : '<' ∉ r.attributes := by
    simp [attributes, attributeText, r.op_plain.2.1]
  have htext : '<' ∉ r.text := fun hmem => absurd (r.text_isRangeChar _ hmem) (by decide)
  have hinner : '<' ∉ r.tag ++ ' ' :: (r.attributes ++ '>' :: (before ++ (r.text ++ after))) := by
    simp [htag, hattributes, noOpen_of_blank hbefore, htext, noOpen_of_blank hafter]
  have houter : '<' ∉ '/' :: (r.tag ++ ['>']) := by
    simp [htag]
  have hopen (rest : List Char) :
      "</package>".toList.isPrefixOf? ('<' :: (r.tag ++ rest)) = none := by
    rw [tag]
    cases r.vulnerable <;> rfl
  have hclose (rest : List Char) :
      "</package>".toList.isPrefixOf? ('<' :: '/' :: (r.tag ++ rest)) = none := by
    rw [tag]
    cases r.vulnerable <;> rfl
  have hwritten : r.render before after =
      '<' :: ((r.tag ++ ' ' :: (r.attributes ++ '>' :: (before ++ (r.text ++ after)))) ++
        '<' :: '/' :: (r.tag ++ ['>'])) := by
    simp [render, close]
  rw [hwritten]
  refine .cons (fun rest => ?_) ((skips_of_not_mem rfl hinner).append (.cons (fun rest => ?_)
    (skips_of_not_mem rfl houter)))
  · simpa using hopen _
  · simpa using hclose _

variable {ranges : List RangeEntry} {body : List Char}

theorem findAll_takeRange? (h : Spaced Renders ranges body) :
    findAll takeRange? body = ranges.map element := by
  have hgap (c : Char) (cs : List Char) (hblank : isBlank c = true) : takeRange? (c :: cs) = none :=
    takeRange?_of_not (ne_open_of_isBlank hblank)
  have hread (r : RangeEntry) (piece : List Char) (hpiece : r.Renders piece) :
      ∃ e, r.element = e ∧ ∀ rest, takeRange? (piece ++ rest) = some (e, rest) := by
    obtain ⟨before, after, hbefore, hafter, rfl⟩ := hpiece
    exact ⟨r.element, rfl, fun rest => takeRange?_render hbefore hafter⟩
  obtain ⟨elements, helements, hfind⟩ := findAll_spaced hgap hread h
  have hfind := hfind []
  have heq := List.forall₂_map_left_iff.2 helements
  rw [List.forall₂_eq_eq_eq] at heq
  rwa [List.append_nil, findAll_nil, List.append_nil, ← heq] at hfind

theorem row_skips (h : Spaced Renders ranges body) : Skips "</package>".toList body := by
  induction h with
  | nil hblank => exact skips_of_not_mem rfl (noOpen_of_blank hblank)
  | cons hblank hpiece _ ih =>
    obtain ⟨before, after, hbefore, hafter, rfl⟩ := hpiece
    exact (skips_of_not_mem rfl (noOpen_of_blank hblank)).append
      ((render_skips hbefore hafter).append ih)

end RangeEntry

/-! Package elements. -/

namespace PackageEntry

def archText (p : PackageEntry) : List Char :=
  match p.arches with
  | none => ['*']
  | some arches => [' '].intercalate (arches.map String.toList)

def attributes (p : PackageEntry) : List Char :=
  attributeText "name".toList p.name.toList ++ ' ' :: attributeText "arch".toList p.archText

def render (p : PackageEntry) (body : List Char) : List Char :=
  "<package".toList ++ ' ' :: (p.attributes ++ '>' :: (body ++ "</package>".toList))

def Renders (p : PackageEntry) (cs : List Char) : Prop :=
  ∃ body, Spaced RangeEntry.Renders p.ranges body ∧ cs = p.render body

def vulnerability (id : String) (p : PackageEntry) : Vulnerability where
  advisory := "GLSA-" ++ id
  arches := p.arches.getD []
  vulnerable := (p.ranges.filter (·.vulnerable)).filterMap (·.range?)
  unaffected := (p.ranges.filter (!·.vulnerable)).filterMap (·.range?)

theorem archText_plain : IsPlain p.archText := by
  rw [archText]
  cases harches : p.arches with
  | none => decide
  | some arches =>
    have hplain := p.arches_plain arches harches
    have hwithout {mark : Char} (hspace : mark ≠ ' ') (h : ∀ arch ∈ arches, mark ∉ arch.toList) :
        mark ∉ [' '].intercalate (arches.map String.toList) := by
      intro hmem
      rcases mem_intercalate hmem with rfl | ⟨piece, hpiece, hmem⟩
      · exact hspace rfl
      · obtain ⟨arch, harch, rfl⟩ := List.mem_map.1 hpiece
        exact h arch harch hmem
    exact ⟨hwithout (by decide) fun arch harch => (hplain arch harch).1,
      hwithout (by decide) fun arch harch => (hplain arch harch).2.1,
      hwithout (by decide) fun arch harch => (hplain arch harch).2.2⟩

theorem attributesOf_attributes (p : PackageEntry) :
    attributesOf p.attributes = [("name", p.name), ("arch", String.ofList p.archText)] := by
  have hfirst : attributesOf p.attributes = (String.ofList "name".toList,
      String.ofList p.name.toList) ::
        attributesOf (' ' :: attributeText "arch".toList p.archText) :=
    attributesOf_attribute (by decide) (by decide) p.name_plain.1
  have hsecond : attributesOf (attributeText "arch".toList p.archText ++ []) =
      (String.ofList "arch".toList, String.ofList p.archText) :: attributesOf [] :=
    attributesOf_attribute (by decide) (by decide) p.archText_plain.1
  rw [List.append_nil, attributesOf_nil] at hsecond
  rw [hfirst, attributesOf_cons_of_not (by decide), hsecond]
  simp only [String.ofList_toList]

theorem arches_attributes (p : PackageEntry) :
    Advisory.arches (attributesOf p.attributes).reverse = p.arches.getD [] := by
  have hlookup : (attributesOf p.attributes).reverse.lookup "arch" =
      some (String.ofList p.archText) := by
    rw [attributesOf_attributes]
    rfl
  rw [Advisory.arches.eq_def, hlookup, archText]
  cases harches : p.arches with
  | none => rfl
  | some arches =>
    have hbare := p.arches_bare arches harches
    have hwords := words_intercalate (fun arch harch => (hbare arch harch).1)
      fun arch harch => (hbare arch harch).2.1
    split
    case h_1 heq => cases heq
    case h_2 heq =>
      -- The star would be the last character of some architecture.
      have hchars : [' '].intercalate (arches.map String.toList) = "*".toList := by
        have hsame := congrArg String.toList (Option.some.inj heq)
        rw [String.toList_ofList] at hsame
        exact hsame
      have hstar : '*' ∈ [' '].intercalate (arches.map String.toList) := by
        rw [hchars]
        decide
      rcases mem_intercalate hstar with hspace | ⟨piece, hpiece, hmem⟩
      · cases hspace
      · obtain ⟨arch, harch, rfl⟩ := List.mem_map.1 hpiece
        exact absurd hmem (hbare arch harch).2.2
    case h_3 list _ heq =>
      cases heq
      exact hwords

theorem attributes_noClose : '>' ∉ p.attributes := by
  simp [attributes, attributeText, p.name_plain.2.2, p.archText_plain.2.2]

variable {body : List Char}

theorem takePackage?_of_not (h : c ≠ '<') : takePackage? (c :: cs) = none := by
  rw [takePackage?]
  simp [List.isPrefixOf?, Ne.symm h]

theorem takePackage?_render (h : Spaced RangeEntry.Renders p.ranges body) :
    takePackage? (p.render body ++ rest) = some ((p.attributes, body), rest) := by
  have hwritten : p.render body ++ rest = "<package".toList ++
      ' ' :: (p.attributes ++ '>' :: (body ++ ("</package>".toList ++ rest))) := by
    unfold render
    simp only [List.append_assoc, List.cons_append]
  have hblanks (cs : List Char) : takeBlanks? (' ' :: (p.attributes ++ cs)) =
      some (p.attributes ++ cs) := by
    refine takeBlanks?_space fun c hc => ?_
    obtain rfl : 'n' = c := by simpa [attributes, attributeText] using hc
    decide
  rw [takePackage?, hwritten, isPrefixOf?_append]
  simp only [Option.bind_eq_bind, Option.bind_some, hblanks, cutAt?_singleton p.attributes_noClose,
    cutAt?_of_skips (by decide) (RangeEntry.row_skips h)]

theorem vulnerability?_render {id : String} (h : Spaced RangeEntry.Renders p.ranges body) :
    vulnerability? id.toList (p.attributes, body) = some (p.name, p.vulnerability id) := by
  have hname : (attributesOf p.attributes).reverse.lookup "name" = some p.name := by
    rw [attributesOf_attributes]
    rfl
  rw [vulnerability?, RangeEntry.findAll_takeRange? h, hname, arches_attributes]
  simp [vulnerability, List.filter_map, List.filterMap_map, Function.comp_def,
    RangeEntry.element_range?, RangeEntry.element_vulnerable]

end PackageEntry

/-! Whole advisories. -/

namespace Document

def render (d : Document) (inner : List Char) : List Char :=
  "<glsa".toList ++ ' ' :: (attributeText "id".toList d.id.toList ++ '>' :: (inner ++ "</glsa>".toList))

def Renders (d : Document) (cs : List Char) : Prop :=
  ∃ before inner after, Blank before ∧ Blank after ∧
    Spaced PackageEntry.Renders d.packages inner ∧ cs = before ++ (d.render inner ++ after)

def described (d : Document) : List (String × Vulnerability) :=
  d.packages.map fun p => (p.name, p.vulnerability d.id)

def told (d : Document) (key : String) : List Vulnerability :=
  (d.packages.filter (·.name == key)).map (·.vulnerability d.id)

def write (gap : List Char) (d : Document) : List Char :=
  let writeRange (r : RangeEntry) := r.render [] []
  let writePackage (p : PackageEntry) := p.render (spaceOut gap writeRange p.ranges)
  gap ++ (d.render (spaceOut gap writePackage d.packages) ++ gap)

theorem renders_write {gap : List Char} (hgap : Blank gap) (d : Document) :
    d.Renders (d.write gap) := by
  have hrange (r : RangeEntry) : r.Renders (r.render [] []) :=
    ⟨[], [], List.forall_mem_nil _, List.forall_mem_nil _, rfl⟩
  refine ⟨gap, _, gap, hgap, hgap, spaced_spaceOut hgap fun p _ => ?_, rfl⟩
  exact ⟨_, spaced_spaceOut hgap fun r _ => hrange r, rfl⟩

example : String.ofList (write ['\n'] ⟨"202401-01", [⟨"dev-libs/foo", some ["amd64", "ppc"],
    [⟨true, "lt", "1.2", false, by decide, by decide, by decide⟩],
    by decide, by decide, by decide⟩], by decide, by decide⟩) =
      "\n<glsa id=\"202401-01\">\n<package name=\"dev-libs/foo\" arch=\"amd64 ppc\">\n" ++
        "<vulnerable range=\"lt\">1.2</vulnerable>\n</package>\n</glsa>\n" := by
  decide +kernel

variable {before inner after : List Char}

theorem takeId?_of_not (h : c ≠ '<') : takeId? (c :: cs) = none := by
  rw [takeId?]
  simp [List.isPrefixOf?, Ne.symm h]

theorem takeId?_render (d : Document) (inner rest : List Char) :
    ∃ rest', takeId? (d.render inner ++ rest) = some (d.id.toList, rest') := by
  have hlength : 1 ≤ d.id.toList.length := List.length_pos_iff.2 (by simpa using d.id_nonempty)
  have hwritten : d.render inner ++ rest = "<glsa".toList ++ ' ' ::
      ("id=\"".toList ++ (d.id.toList ++ '"' :: '>' :: (inner ++ ("</glsa>".toList ++ rest)))) := by
    unfold render attributeText
    simp
  have hblanks (cs : List Char) : takeBlanks? (' ' :: ("id=\"".toList ++ cs)) =
      some ("id=\"".toList ++ cs) := by
    refine takeBlanks?_space fun c hc => ?_
    obtain rfl : 'i' = c := by simpa using hc
    decide
  rw [takeId?, hwritten, isPrefixOf?_append]
  simp only [Option.bind_eq_bind, Option.bind_some, hblanks, isPrefixOf?_append,
    takeQuoted?_append d.id_plain.1 hlength]
  exact ⟨_, rfl⟩

theorem findFirst?_takeId? (hbefore : Blank before) :
    findFirst? takeId? (before ++ (d.render inner ++ after)) = some d.id.toList := by
  have hskip : ∀ c ∈ before, ∀ cs, takeId? (c :: cs) = none :=
    fun c hc cs => takeId?_of_not (ne_of_mem_of_not_mem hc (noOpen_of_blank hbefore))
  have hne : d.render inner ++ after ≠ [] := by
    unfold render
    simp
  obtain ⟨rest', hread⟩ := takeId?_render d inner after
  rw [findFirst?_append_of_none hskip, findFirst?_of_some hne hread]

theorem findAll_takePackage? (hbefore : Blank before) (hafter : Blank after)
    (h : Spaced PackageEntry.Renders d.packages inner) :
    List.Forall₂
      (fun p element => vulnerability? d.id.toList element = some (p.name, p.vulnerability d.id))
      d.packages (findAll takePackage? (before ++ (d.render inner ++ after))) := by
  have hskip {skipped : List Char} (h : '<' ∉ skipped) (rest : List Char) :
      findAll takePackage? (skipped ++ rest) = findAll takePackage? rest :=
    findAll_append_of_none fun c hc cs =>
      PackageEntry.takePackage?_of_not (ne_of_mem_of_not_mem hc h)
  have hgap (c : Char) (cs : List Char) (hblank : isBlank c = true) :
      takePackage? (c :: cs) = none :=
    PackageEntry.takePackage?_of_not (ne_open_of_isBlank hblank)
  have hread (p : PackageEntry) (piece : List Char) (hpiece : p.Renders piece) : ∃ element,
      vulnerability? d.id.toList element = some (p.name, p.vulnerability d.id) ∧
        ∀ rest, takePackage? (piece ++ rest) = some (element, rest) := by
    obtain ⟨body, hbody, rfl⟩ := hpiece
    exact ⟨_, PackageEntry.vulnerability?_render hbody,
      fun rest => PackageEntry.takePackage?_render hbody⟩
  -- Neither tag of the advisory is that of a package.
  have hopen (cs : List Char) : takePackage? ('<' :: ("glsa".toList ++ cs)) = none := rfl
  have hclose (cs : List Char) : takePackage? ('<' :: ("/glsa>".toList ++ cs)) = none := rfl
  have hhead : '<' ∉ "glsa".toList ++ ' ' :: (attributeText "id".toList d.id.toList ++ ['>']) := by
    simp [attributeText, d.id_plain.2.1]
  have hfoot : '<' ∉ "/glsa>".toList ++ after := by
    simp [noOpen_of_blank hafter]
  have hwritten : d.render inner ++ after = '<' :: (("glsa".toList ++
      ' ' :: (attributeText "id".toList d.id.toList ++ ['>'])) ++ (inner ++
        '<' :: ("/glsa>".toList ++ after))) := by
    unfold render
    simp
  obtain ⟨found, hfound, hfind⟩ := findAll_spaced hgap hread h
  have hend : findAll takePackage? ('<' :: ("/glsa>".toList ++ after)) = [] := by
    have hnil := hskip hfoot []
    rw [List.append_nil, findAll_nil] at hnil
    rw [findAll_cons_of_none (hclose after), hnil]
  rw [hskip (noOpen_of_blank hbefore), hwritten, findAll_cons_of_none (by
    rw [List.append_assoc]
    exact hopen _), hskip hhead, hfind, hend, List.append_nil]
  exact hfound

theorem vulnerabilities_eq (h : d.Renders cs) : vulnerabilities cs = d.described := by
  obtain ⟨before, inner, after, hbefore, hafter, hinner, rfl⟩ := h
  have hfound := findAll_takePackage? hbefore hafter hinner
  rw [vulnerabilities, findFirst?_takeId? hbefore, described]
  generalize findAll takePackage? _ = found at hfound ⊢
  generalize d.packages = packages at hfound ⊢
  simp only
  induction hfound with
  | nil => rfl
  | cons hread _ ih => rw [List.filterMap_cons, hread, ih, List.map_cons]

end Document

/-! Advisories added to an index. -/

def VersionRange.spelled (r : VersionRange) : RangeOp × String × Bool :=
  (r.op, r.version.text, r.star)

namespace Index

variable {i : Index} {d : Document} {xml key : String}

theorem add_sorted (hi : Ascending.Sorted i.byPackage) (xml : String) :
    Ascending.Sorted (i.add xml).byPackage := by
  rw [add]
  generalize vulnerabilities xml.toList = found
  induction found generalizing i with
  | nil => exact hi
  | cons entry found ih => exact ih (i := ⟨_⟩) (Ascending.modify_sorted hi)

theorem lookup_add (hi : Ascending.Sorted i.byPackage) (h : d.Renders xml.toList) :
    (i.add xml).byPackage.lookup key =
      if d.packages.any (·.name == key) then some (i.ofPackage key ++ d.told key)
      else i.byPackage.lookup key := by
  have hlookup := Ascending.lookup_foldl_push_map (·.1) (·.2) d.described hi key
  rw [add, Document.vulnerabilities_eq h]
  refine hlookup.trans ?_
  simp [Document.described, Document.told, ofPackage, List.filter_map, Function.comp_def]

theorem ofPackage_add (hi : Ascending.Sorted i.byPackage) (h : d.Renders xml.toList) :
    (i.add xml).ofPackage key = i.ofPackage key ++ d.told key := by
  rw [ofPackage, lookup_add hi h]
  split
  case isTrue => rfl
  case isFalse hany =>
    have hnone : d.packages.filter (·.name == key) = [] := by simpa using hany
    rw [Document.told, hnone, List.map_nil, List.append_nil, ofPackage]

theorem lookup_add_isSome (hi : Ascending.Sorted i.byPackage) (h : d.Renders xml.toList) :
    ((i.add xml).byPackage.lookup key).isSome ↔
      (i.byPackage.lookup key).isSome ∨ ∃ p ∈ d.packages, p.name = key := by
  rw [lookup_add hi h]
  split
  case isTrue hany => simpa using .inr (by simpa using hany)
  case isFalse hany =>
    have hnone : ¬∃ p ∈ d.packages, p.name = key := by simpa using hany
    rw [or_iff_left hnone]

/--
Advisories are read as they are written. Each package gains what the advisories say of it, in their
order and that of their elements, after what the index had of it; no other package comes in.
-/
theorem foldl_add_renders {docs : List Document} {texts : List String}
    (hi : Ascending.Sorted i.byPackage)
    (h : List.Forall₂ (fun d text => d.Renders text.toList) docs texts) :
    Ascending.Sorted (texts.foldl add i).byPackage ∧
      (∀ key, (texts.foldl add i).ofPackage key = i.ofPackage key ++ docs.flatMap (·.told key)) ∧
      ∀ key, ((texts.foldl add i).byPackage.lookup key).isSome ↔
        (i.byPackage.lookup key).isSome ∨ ∃ d ∈ docs, ∃ p ∈ d.packages, p.name = key := by
  induction h generalizing i with
  | nil => exact ⟨hi, fun key => by simp, fun key => by simp⟩
  | @cons d text docs texts hd _ ih =>
    obtain ⟨hsorted, hof, hsome⟩ := ih (add_sorted hi text)
    refine ⟨hsorted, fun key => ?_, fun key => ?_⟩
    · rw [List.foldl_cons, hof, ofPackage_add hi hd, List.flatMap_cons, List.append_assoc]
    · rw [List.foldl_cons, hsome, lookup_add_isSome hi hd, or_assoc, List.exists_mem_cons_iff]

theorem foldl_add_renders_twoAdvisories :
    let foo : PackageEntry := ⟨"dev-libs/foo", some ["amd64", "ppc"],
      [⟨false, "ge", "1.2-r1", false, by decide, by decide, by decide⟩,
        ⟨true, "almost", "1.2", false, by decide, by decide, by decide⟩,
        ⟨true, "eq", "1.1b_rc2", true, by decide, by decide, by decide⟩,
        ⟨true, "rlt", "1.2-", false, by decide, by decide, by decide⟩],
      by decide, by decide, by decide⟩
    let bar : PackageEntry := ⟨"dev-libs/bar", none,
      [⟨true, "le", "3", false, by decide, by decide, by decide⟩], by decide, by decide, by decide⟩
    let first : Document := ⟨"202401-01", [foo, bar], by decide, by decide⟩
    let second : Document := ⟨"202402-01", [foo], by decide, by decide⟩
    let i : Index := ⟨[("dev-libs/foo", [⟨"GLSA-202312-01", [], [], []⟩])]⟩
    let texts := [String.ofList (first.write []), String.ofList (second.write ['\n', ' '])]
    let found := texts.foldl add i
    Ascending.Sorted i.byPackage ∧
      List.Forall₂ (fun d text => d.Renders text.toList) [first, second] texts ∧
      (found.ofPackage "dev-libs/foo").map (·.advisory) =
        ["GLSA-202312-01", "GLSA-202401-01", "GLSA-202402-01"] ∧
      (found.ofPackage "dev-libs/foo").map (·.arches) =
        [[], ["amd64", "ppc"], ["amd64", "ppc"]] ∧
      (found.ofPackage "dev-libs/foo").map (·.vulnerable.map (·.spelled)) =
        [[], [(.eq, "1.1b_rc2", true)], [(.eq, "1.1b_rc2", true)]] ∧
      (found.ofPackage "dev-libs/foo").map (·.unaffected.map (·.spelled)) =
        [[], [(.ge, "1.2-r1", false)], [(.ge, "1.2-r1", false)]] ∧
      (found.ofPackage "dev-libs/bar").map (fun u => (u.arches, u.vulnerable.map (·.spelled))) =
        [([], [(.le, "3", false)])] := by
  intro foo bar first second i texts found
  have hi : Ascending.Sorted i.byPackage := by decide
  have hwritten {gap : List Char} (hgap : Blank gap) (d : Document) :
      d.Renders (String.ofList (d.write gap)).toList := by
    rw [String.toList_ofList]
    exact d.renders_write hgap
  have hrenders : List.Forall₂ (fun d text => d.Renders text.toList) [first, second] texts :=
    .cons (hwritten (by decide) first) (.cons (hwritten (by decide) second) .nil)
  have hread := (foldl_add_renders hi hrenders).2.1
  refine ⟨hi, hrenders, ?_, ?_, ?_, ?_, ?_⟩
  all_goals
    rw [hread]
    decide +kernel

end Index

end EbuildAudit.Advisory
