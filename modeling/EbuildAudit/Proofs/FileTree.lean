import EbuildAudit.FileTree
import EbuildAudit.Proofs.Ascending
import EbuildAudit.Proofs.Basic
import EbuildAudit.Proofs.Path

namespace EbuildAudit

namespace Entry

def get? : Entry → List String → Option Entry
  | e, [] => some e
  | .file .., _ :: _ => none
  | .dir entries, name :: names =>
    match entries.lookup name with
    | none => none
    | some e => e.get? names

/-- The same file, or two directories. -/
inductive Alike : Entry → Entry → Prop
  | file (bytes : ByteArray) (modified : Int) : Alike (.file bytes modified) (.file bytes modified)
  | dir (entries entries' : List (String × Entry)) : Alike (.dir entries) (.dir entries')

variable {e e' : Entry} {x : Option Entry} {name k : String} {names place rest : List String}
  {entries : List (String × Entry)} {f : Option Entry → Option Entry}

theorem Alike.refl (e : Entry) : Alike e e := by
  cases e with
  | file bytes modified => exact .file bytes modified
  | dir entries => exact .dir entries entries

theorem Alike.symm (h : Alike e e') : Alike e' e := by
  cases h with
  | file bytes modified => exact .file bytes modified
  | dir entries entries' => exact .dir entries' entries

theorem Alike.of_dir_left (h : Alike (.dir entries) e) : ∃ entries', e = .dir entries' := by
  cases h with
  | dir _ entries' => exact ⟨entries', rfl⟩

theorem Alike.of_file_left {bytes : ByteArray} {modified : Int}
    (h : Alike (.file bytes modified) e) : e = .file bytes modified := by
  cases h
  rfl

theorem exists_alike {y : Option Entry} (h : Option.Rel Alike x y) (hx : x = some e) :
    ∃ e', y = some e' ∧ Alike e e' := by
  subst hx
  cases h with
  | some halike => exact ⟨_, rfl, halike⟩

theorem exists_alike_of_right {y : Option Entry} (h : Option.Rel Alike x y) (hy : y = some e) :
    ∃ e', x = some e' ∧ Alike e e' := by
  subst hy
  cases h with
  | some halike => exact ⟨_, rfl, halike.symm⟩

theorem alike_refl (x : Option Entry) : Option.Rel Alike x x := by
  cases x with
  | none => exact .none
  | some e => exact .some (.refl e)

theorem lookup_setEntry (name : String) (x : Option Entry) (entries : List (String × Entry))
    (k : String) :
    (setEntry name x entries).lookup k = if k = name then x else entries.lookup k := by
  cases x with
  | some e => exact Ascending.lookup_set name e entries k
  | none =>
    by_cases hk : k = name
    · rw [if_pos hk, hk, setEntry, lookup_filter_self]
    · rw [if_neg hk, setEntry, lookup_filter_of_ne hk]

theorem get?_dir_cons : (dir entries).get? (name :: names) =
    (entries.lookup name).bind (·.get? names) := by
  rw [get?]
  cases entries.lookup name <;> rfl

theorem modify_dir_cons : modify f (name :: names) (some (.dir entries)) =
    some (.dir (setEntry name (modify f names (entries.lookup name)) entries)) :=
  rfl

theorem get?_modify_of_apart (h : ¬place <+: names) :
    Option.Rel Alike (e.get? names) ((modify (fun _ => x) place (some e)).bind (·.get? names)) := by
  induction place generalizing e names with
  | nil => exact absurd (List.nil_prefix) h
  | cons name place ih =>
    cases e with
    | file bytes modified => exact alike_refl _
    | dir entries =>
      rw [modify_dir_cons]
      cases names with
      | nil => exact .some (.dir _ _)
      | cons k names =>
        rw [Option.bind_some, get?_dir_cons, get?_dir_cons, lookup_setEntry]
        by_cases hk : k = name
        · subst hk
          rw [List.cons_prefix_cons] at h
          have h : ¬place <+: names := fun hplace => h ⟨rfl, hplace⟩
          rw [if_pos rfl]
          cases hlookup : entries.lookup k with
          | some e => exact ih h
          | none =>
            cases place with
            | nil => exact absurd List.nil_prefix h
            | cons other place => exact .none
        · rw [if_neg hk]
          exact alike_refl _

theorem get?_modify_append (hplace : place ≠ [])
    (h : (modify (fun _ => x) place (some e)).bind (·.get? (place ++ rest)) = some e') :
    x.bind (·.get? rest) = some e' := by
  induction place generalizing e with
  | nil => exact absurd rfl hplace
  | cons name place ih =>
    cases e with
    | file bytes modified => cases h
    | dir entries =>
      rw [modify_dir_cons, Option.bind_some, List.cons_append, get?_dir_cons, lookup_setEntry,
        if_pos rfl] at h
      cases place with
      | nil => exact h
      | cons other place =>
        cases hlookup : entries.lookup name with
        | none =>
          rw [hlookup] at h
          cases h
        | some e =>
          rw [hlookup] at h
          exact ih (List.cons_ne_nil _ _) h

theorem get?_append : e.get? (place ++ rest) = (e.get? place).bind (·.get? rest) := by
  induction place generalizing e with
  | nil => rfl
  | cons name place ih =>
    cases e with
    | file bytes modified => rfl
    | dir entries =>
      rw [List.cons_append, get?_dir_cons, get?_dir_cons]
      cases entries.lookup name with
      | none => rfl
      | some e => exact ih

inductive Located (root : Entry) : List String → Entry → List Entry → Prop
  | root : Located root [] root []
  | child {done : List String} {entries : List (String × Entry)} {up : List Entry} {name : String}
    {e : Entry} : Located root done (.dir entries) up → entries.lookup name = some e →
      Located root (name :: done) e (.dir entries :: up)

def advance (done : List String) (name : String) : List String :=
  if name = "." then done else if name = ".." then done.tail else name :: done

def Passes (root : Entry) : List String → List String → Prop
  | _, [] => True
  | done, name :: names =>
    (∃ entries, root.get? done.reverse = some (.dir entries)) ∧
      Passes root (advance done name) names

variable {root root' : Entry} {done : List String} {up : List Entry}

namespace Located

theorem get? (h : Located root done e up) : root.get? done.reverse = some e := by
  induction h with
  | root => rfl
  | child _ hlookup ih =>
    rw [List.reverse_cons, get?_append, ih, Option.bind_some, get?_dir_cons, hlookup]
    rfl

end Located

theorem walk_nil : walk e up [] = .ok e := by
  cases e <;> rfl

theorem walk_eq_ok_iff (h : Located root done e up) : walk e up names = .ok e' ↔
    Passes root done names ∧ root.get? (names.foldl advance done).reverse = some e' := by
  induction names generalizing done e up with
  | nil =>
    rw [walk_nil, List.foldl_nil, h.get?]
    simp [Passes]
  | cons name names ih =>
    rw [List.foldl_cons, Passes, h.get?]
    cases e with
    | file bytes modified => simp [walk]
    | dir entries =>
      rw [walk.eq_def, advance]
      simp only
      split
      case isTrue => simp [ih h]
      case isFalse =>
        split
        case isTrue =>
          cases h with
          | root => simp [ih .root]
          | child hup hlookup => simp [ih hup]
        case isFalse =>
          cases hlookup : entries.lookup name with
          | some e => simp [ih (h.child hlookup)]
          | none =>
            have hnone : root.get? (done.reverse ++ [name]) = none := by
              rw [get?_append, h.get?, Option.bind_some, get?_dir_cons, hlookup]
              rfl
            cases names with
            | nil => simp [hnone]
            | cons other names => simp [Passes, hnone]

theorem Passes.mono (hdirs : ∀ l, l <+: names → ∀ entries,
    root'.get? (l.foldl advance done).reverse = some (.dir entries) →
      ∃ entries', root.get? (l.foldl advance done).reverse = some (.dir entries'))
    (h : Passes root' done names) : Passes root done names := by
  induction names generalizing done with
  | nil => trivial
  | cons name names ih =>
    obtain ⟨⟨entries, hdir⟩, hrest⟩ := h
    refine ⟨hdirs [] List.nil_prefix entries hdir, ih (fun l hl => ?_) hrest⟩
    exact hdirs (name :: l) (List.cons_prefix_cons.2 ⟨rfl, hl⟩)

theorem get?_modify_concat (h : e.get? names = some (.dir entries)) :
    (modify (fun _ => x) (names ++ [name]) (some e)).bind (·.get? (names ++ [name])) = x := by
  induction names generalizing e with
  | nil =>
    cases h
    rw [List.nil_append, modify_dir_cons, Option.bind_some, get?_dir_cons, lookup_setEntry,
      if_pos rfl]
    cases x <;> rfl
  | cons next names ih =>
    cases e with
    | file bytes modified => cases h
    | dir others =>
      rw [get?_dir_cons] at h
      obtain ⟨below, hbelow, h⟩ := Option.bind_eq_some_iff.1 h
      rw [List.cons_append, modify_dir_cons, Option.bind_some, get?_dir_cons, lookup_setEntry,
        if_pos rfl, hbelow]
      exact ih h

theorem passes_concat : Passes root done (names ++ [name]) ↔
    Passes root done names ∧
      ∃ entries, root.get? (names.foldl advance done).reverse = some (.dir entries) := by
  induction names generalizing done with
  | nil => simp [Passes]
  | cons next names ih => rw [List.cons_append, Passes, Passes, ih, List.foldl_cons, and_assoc]

theorem Passes.get?_before {l : List String} (h : Passes root done names) (hl : l <+: names) :
    l = names ∨ ∃ entries, root.get? (l.foldl advance done).reverse = some (.dir entries) := by
  induction names generalizing done l with
  | nil => exact .inl (List.prefix_nil.1 hl)
  | cons next names ih =>
    obtain ⟨hhere, hrest⟩ := h
    cases l with
    | nil => exact .inr hhere
    | cons first l =>
      obtain ⟨rfl, hbelow⟩ := List.cons_prefix_cons.1 hl
      exact (ih hrest hbelow).imp_left (congrArg (first :: ·))

theorem eq_of_below (hplace : ∀ entries, root.get? place ≠ some (.dir entries))
    (h : root.get? names = some e) (hbelow : place <+: names) : place = names := by
  obtain ⟨rest, rfl⟩ := hbelow
  rw [get?_append] at h
  obtain ⟨y, hy, hrest⟩ := Option.bind_eq_some_iff.1 h
  cases y with
  | dir entries => exact absurd hy (hplace entries)
  | file bytes modified =>
    cases rest with
    | nil => rw [List.append_nil]
    | cons name rest => cases hrest

end Entry

namespace FileTree

open Entry (Alike Passes advance)

variable {t t' : FileTree} {p q : String} {bytes content : ByteArray} {modified : Int}
  {place names : List String} {e : Entry} {x : Option Entry}

theorem resolved_eq (names : List String) : resolved names = (names.foldl advance []).reverse :=
  rfl

theorem resolved_concat {name : String} (h : name ≠ ".") (h' : name ≠ "..") :
    resolved (names ++ [name]) = resolved names ++ [name] := by
  rw [resolved_eq, resolved_eq, List.foldl_append, List.foldl_cons, List.foldl_nil, advance,
    if_neg h, if_neg h', List.reverse_cons]

theorem entry_eq_ok_iff : t.entry p = .ok e ↔
    p.isEmpty = false ∧ Passes t.root [] (t.namesFromRoot p) ∧
      t.root.get? (t.place p) = some e := by
  rw [entry]
  cases p.isEmpty with
  | true => simp
  | false => simp [Entry.walk_eq_ok_iff .root, place, resolved_eq]

theorem readBytes_eq_ok_iff : t.readBytes p = .ok bytes ↔
    ∃ modified, t.entry p = .ok (.file bytes modified) := by
  rw [readBytes]
  cases t.entry p with
  | error e => simp
  | ok e => cases e <;> simp

theorem readText_eq_ok_iff {text : String} : t.readText p = .ok text ↔
    ∃ bytes, t.readBytes p = .ok bytes ∧ String.fromUTF8? bytes = some text := by
  rw [readText]
  cases t.readBytes p with
  | error cause => simp [bind, Except.bind]
  | ok bytes => cases h : String.fromUTF8? bytes <;> simp [bind, Except.bind, h]

theorem readBytes_iff : t.readBytes q = .ok bytes ↔
    q.isEmpty = false ∧ Passes t.root [] (t.namesFromRoot q) ∧
      ∃ modified, t.root.get? (t.place q) = some (.file bytes modified) := by
  rw [readBytes_eq_ok_iff]
  simp only [entry_eq_ok_iff, exists_and_left]

theorem modify_root (hplace : place ≠ []) :
    Entry.modify (fun _ => x) place (some t.root) = some (t.setAt place x).root := by
  obtain ⟨name, names, rfl⟩ := List.exists_cons_of_ne_nil hplace
  rw [setAt]
  cases t.root with
  | file bytes modified => rfl
  | dir entries => rfl

/-- Away from a change there are the same files, and directories where there were directories. -/
theorem get?_setAt_of_apart (hplace : place ≠ []) (h : ¬place <+: names) :
    Option.Rel Alike (t.root.get? names) ((t.setAt place x).root.get? names) := by
  have hrel := Entry.get?_modify_of_apart (x := x) (e := t.root) h
  rwa [modify_root hplace] at hrel

theorem get?_setAt_append {rest : List String} (hplace : place ≠ [])
    (h : (t.setAt place x).root.get? (place ++ rest) = some e) :
    x.bind (·.get? rest) = some e := by
  apply Entry.get?_modify_append hplace
  rw [modify_root hplace]
  exact h

theorem get?_setAt_concat {entries : List (String × Entry)} {name : String}
    (h : t.root.get? names = some (.dir entries)) :
    (t.setAt (names ++ [name]) x).root.get? (names ++ [name]) = x := by
  have hput : (Entry.modify (fun _ => x) (names ++ [name]) (some t.root)).bind
      (·.get? (names ++ [name])) = x := Entry.get?_modify_concat h
  rwa [modify_root (List.concat_ne_nil name names)] at hput

theorem get?_below (hx : ∀ entries, x ≠ some (.dir entries)) {rest : List String}
    (h : x.bind (·.get? rest) = some e) : rest = [] ∧ x = some e := by
  cases x with
  | none => cases h
  | some y =>
    cases y with
    | dir entries => exact absurd rfl (hx entries)
    | file bytes modified =>
      cases rest with
      | nil => exact ⟨rfl, h⟩
      | cons name rest => cases h

theorem readBytes_setAt (hplace : place ≠ []) (hx : ∀ entries, x ≠ some (.dir entries))
    (h : (t.setAt place x).readBytes q = .ok bytes) :
    (t.place q = place ∧ ∃ modified, x = some (.file bytes modified)) ∨
      t.readBytes q = .ok bytes := by
  obtain ⟨hq, hpasses, modified, hfile⟩ := readBytes_iff.1 h
  have hold {names : List String} {e : Entry}
      (he : (t.setAt place x).root.get? names = some e) :
      (names = place ∧ x = some e) ∨ ∃ e', t.root.get? names = some e' ∧ Alike e e' := by
    by_cases hprefix : place <+: names
    · obtain ⟨rest, rfl⟩ := hprefix
      obtain ⟨rfl, hx⟩ := get?_below hx (get?_setAt_append hplace he)
      exact .inl ⟨List.append_nil _, hx⟩
    · exact .inr (Entry.exists_alike_of_right (get?_setAt_of_apart hplace hprefix) he)
  rcases hold hfile with ⟨hnames, hx⟩ | ⟨e', he', halike⟩
  · exact .inl ⟨hnames, modified, hx⟩
  · cases halike.of_file_left
    refine .inr (readBytes_iff.2 ⟨hq, hpasses.mono fun l _ entries hdir => ?_, modified, he'⟩)
    rcases hold hdir with ⟨-, hdir⟩ | ⟨e', he', halike⟩
    · exact absurd hdir (hx entries)
    · obtain ⟨entries', rfl⟩ := halike.of_dir_left
      exact ⟨entries', he'⟩

theorem readBytes_setAt_of_apart (hplace : place ≠ [])
    (hapart : ∀ l, l <+: t.namesFromRoot q → ¬place <+: resolved l)
    (h : t.readBytes q = .ok bytes) : (t.setAt place x).readBytes q = .ok bytes := by
  obtain ⟨hq, hpasses, modified, hfile⟩ := readBytes_iff.1 h
  have hkept {l : List String} (hl : l <+: t.namesFromRoot q) :=
    get?_setAt_of_apart (t := t) (x := x) hplace (hapart l hl)
  refine readBytes_iff.2 ⟨hq, hpasses.mono fun l hl entries hdir => ?_, modified, ?_⟩
  · obtain ⟨e', he', halike⟩ := Entry.exists_alike (hkept hl) hdir
    obtain ⟨entries', rfl⟩ := halike.of_dir_left
    exact ⟨entries', he'⟩
  · obtain ⟨e', he', halike⟩ := Entry.exists_alike (hkept List.prefix_rfl) hfile
    cases halike.of_file_left
    exact he'

theorem write_eq_ok (h : t.write p content modified = .ok t') :
    t' = t.setAt (t.place p) (some (.file content modified)) := by
  simp only [write] at h
  split at h
  case h_1 => cases h
  case h_2 =>
    cases h
    rfl
  case h_3 =>
    split at h
    case h_1 =>
      cases h
      rfl
    case h_2 => cases h
    case h_3 => cases h
  case h_4 => cases h

theorem removeFile_eq_ok (h : t.removeFile p = .ok t') : t' = t.setAt (t.place p) none := by
  simp only [removeFile] at h
  split at h
  case h_1 => cases h
  case h_2 =>
    cases h
    rfl
  case h_3 => cases h

theorem renameFile_eq_ok {source target : String} (h : t.renameFile source target = .ok t') :
    ∃ content modified t₁, t.entry source = .ok (.file content modified) ∧
      t.write target content modified = .ok t₁ ∧ t₁.removeFile source = .ok t' := by
  simp only [renameFile] at h
  split at h
  case h_1 => cases h
  case h_2 content modified hsource _ =>
    cases hwrite : t.write target content modified with
    | error cause =>
      rw [hwrite] at h
      cases h
    | ok t₁ =>
      rw [hwrite] at h
      exact ⟨content, modified, t₁, hsource, hwrite, h⟩
  case h_3 => cases h
  case h_4 => cases h

theorem setAt_nil : t.setAt [] none = t :=
  rfl

theorem readBytes_write (hp : t.place p ≠ []) (h : t.write p content modified = .ok t')
    (hq : t'.readBytes q = .ok bytes) :
    (t.place q = t.place p ∧ bytes = content) ∨ t.readBytes q = .ok bytes := by
  rw [write_eq_ok h] at hq
  rcases readBytes_setAt hp (by simp) hq with ⟨hplace, m, hfile⟩ | hold
  · cases hfile
    exact .inl ⟨hplace, rfl⟩
  · exact .inr hold

theorem readBytes_write_self (h : t.write p content modified = .ok t') (hp : t.place p ≠ [])
    (hq : t'.readBytes p = .ok bytes) : bytes = content := by
  rw [write_eq_ok h] at hq
  obtain ⟨-, -, m, hfile⟩ := readBytes_iff.1 hq
  have hput : (some (Entry.file content modified)).bind (·.get? []) = some (.file bytes m) := by
    apply get?_setAt_append hp
    rw [List.append_nil]
    exact hfile
  cases hput
  rfl

theorem readBytes_removeFile (h : t.removeFile p = .ok t') (hq : t'.readBytes q = .ok bytes) :
    t.readBytes q = .ok bytes := by
  rw [removeFile_eq_ok h] at hq
  by_cases hp : t.place p = []
  · rwa [hp, setAt_nil] at hq
  · rcases readBytes_setAt hp (by simp) hq with ⟨-, m, hfile⟩ | hold
    · cases hfile
    · exact hold

theorem readBytes_renameFile {source target : String} (htarget : t.place target ≠ [])
    (h : t.renameFile source target = .ok t') (hq : t'.readBytes q = .ok bytes) :
    (t.place q = t.place target ∧ t.readBytes source = .ok bytes) ∨ t.readBytes q = .ok bytes := by
  obtain ⟨content, modified, t₁, hsource, hwrite, hremove⟩ := renameFile_eq_ok h
  rcases readBytes_write htarget hwrite (readBytes_removeFile hremove hq) with ⟨hplace, rfl⟩ | hold
  · exact .inl ⟨hplace, readBytes_eq_ok_iff.2 ⟨modified, hsource⟩⟩
  · exact .inr hold

theorem makeDirs_eq_self {passed : List String} {name : String}
    (h : makeDirs passed names t = .ok t')
    (hname : t'.root.get? (passed ++ names ++ [name]) = some e) : t' = t := by
  induction names generalizing passed t with
  | nil =>
    cases h
    rfl
  | cons next names ih =>
    have hname' : t'.root.get? (passed ++ [next] ++ names ++ [name]) = some e := by
      simpa using hname
    simp only [makeDirs] at h
    split at h
    case h_1 => exact ih h hname'
    case h_2 => cases h
    case h_3 =>
      rw [ih h hname', List.append_assoc] at hname'
      have hbelow := get?_setAt_append (by simp) hname'
      cases names <;> cases hbelow

theorem createDirs_eq_self {name : String} (h : t.createDirs p = .ok t')
    (hname : t'.root.get? (t.place p ++ [name]) = some e) : t' = t := by
  rw [createDirs] at h
  split at h
  case isTrue =>
    cases h
    rfl
  case isFalse => exact makeDirs_eq_self h hname

variable {dir name : String}

def namesInto (t : FileTree) (dir : String) : List String :=
  (if Path.isAbsolute dir then [] else t.cwd) ++ (Path.parts dir).filter (!·.isEmpty)

theorem namesFromRoot_eq (t : FileTree) (p : String) : t.namesFromRoot p =
    t.namesInto p ++ if p.toList.getLast? = some '/' then ["."] else [] := by
  have hnames : (Text.splitOn '/' p).filter (!·.isEmpty) =
      (Path.parts p).filter (!·.isEmpty) := by
    rw [Path.splitOn_eq_parts, List.filter_append]
    split <;> exact List.append_nil _
  rw [namesFromRoot, pathNames, hnames, namesInto]
  split <;> simp

theorem resolved_dot (names : List String) : resolved (names ++ ["."]) = resolved names := by
  rw [resolved_eq, resolved_eq, List.foldl_append]
  rfl

theorem resolved_namesInto (t : FileTree) (dir : String) :
    resolved (t.namesInto dir) = t.place dir := by
  rw [place, namesFromRoot_eq]
  split
  · rw [resolved_dot]
  · rw [List.append_nil]

theorem namesInto_join {part : String} (hdir : dir ≠ "") (h : '/' ∉ part.toList) :
    t.namesInto (Path.join dir part) = t.namesInto dir ++ if part = "" then [] else [part] := by
  rw [namesInto, namesInto, Path.isAbsolute_join hdir (Path.isAbsolute_part h),
    Path.parts_join hdir h, List.filter_append, List.append_assoc]
  congr 2
  split
  · rfl
  · simpa

theorem namesFromRoot_join (t : FileTree) (dir : String) (h : IsName name) :
    t.namesFromRoot (Path.join dir name) = t.namesInto dir ++ [name] := by
  by_cases hdir : dir = ""
  · subst hdir
    have hjoin : Path.join "" name = name := by simp [Path.join]
    have hlast : name.toList.getLast? ≠ some '/' := Path.EndsWith.alone.getLast?_ne_slash h
    rw [hjoin, namesFromRoot_eq, if_neg hlast, List.append_nil, namesInto, namesInto,
      Path.isAbsolute_part h.noSlash, Path.parts_of_getLast? hlast, Path.splitOn_part h.noSlash]
    simp [h.nonempty, Path.isAbsolute, Path.parts, Text.splitOn]
  · rw [namesFromRoot_eq, if_neg ((Path.endsWith_join hdir h).getLast?_ne_slash h), List.append_nil,
      namesInto_join hdir h.noSlash, if_neg h.nonempty]

theorem place_join (h : IsName name) :
    t.place (Path.join dir name) = t.place dir ++ [name] := by
  rw [place, namesFromRoot_join t dir h, resolved_concat h.noDot h.noDots, resolved_namesInto]

theorem makeDirs_cwd {passed : List String} (h : makeDirs passed names t = .ok t') :
    t'.cwd = t.cwd := by
  induction names generalizing passed t with
  | nil =>
    cases h
    rfl
  | cons next names ih =>
    simp only [makeDirs] at h
    split at h
    case h_1 => exact ih h
    case h_2 => cases h
    case h_3 =>
      have hcwd := ih h
      exact hcwd

theorem createDirs_cwd (h : t.createDirs p = .ok t') : t'.cwd = t.cwd := by
  rw [createDirs] at h
  split at h
  case isTrue =>
    cases h
    rfl
  case isFalse => exact makeDirs_cwd h

theorem readBytes_createDirs (hname : IsName name) (h : t.createDirs dir = .ok t')
    (hq : t'.readBytes (Path.join dir name) = .ok bytes) :
    t.readBytes (Path.join dir name) = .ok bytes := by
  obtain ⟨-, -, modified, hfile⟩ := readBytes_iff.1 hq
  have hplace : t'.place dir = t.place dir := by
    rw [place, place, namesFromRoot, namesFromRoot, createDirs_cwd h]
  rw [place_join hname, hplace] at hfile
  rwa [createDirs_eq_self h hfile] at hq

theorem readBytes_setAt_of_ne (hplace : place ≠ [])
    (hold : ∀ entries, t.root.get? place ≠ some (.dir entries)) (hne : place ≠ t.place q)
    (h : t.readBytes q = .ok bytes) : (t.setAt place x).readBytes q = .ok bytes := by
  obtain ⟨-, hpasses, modified, hfile⟩ := readBytes_iff.1 h
  refine readBytes_setAt_of_apart hplace (fun l hl hbelow => ?_) h
  rcases hpasses.get?_before hl with rfl | ⟨entries, hdir⟩
  · exact hne (Entry.eq_of_below hold hfile hbelow)
  · rw [Entry.eq_of_below hold hdir hbelow] at hold
    exact hold entries hdir

theorem readBytes_removeFile_of_ne (h : t.removeFile p = .ok t') (hp : t.place p ≠ [])
    (hne : t.place p ≠ t.place q) (hq : t.readBytes q = .ok bytes) : t'.readBytes q = .ok bytes := by
  rw [removeFile_eq_ok h]
  refine readBytes_setAt_of_ne hp (fun entries hdir => ?_) hne hq
  rw [removeFile] at h
  cases hentry : t.entry p with
  | error cause =>
    rw [hentry] at h
    cases h
  | ok e =>
    rw [(entry_eq_ok_iff.1 hentry).2.2, Option.some.injEq] at hdir
    subst hdir
    rw [hentry] at h
    cases h

structure Open (t : FileTree) (dir : String) : Prop where
  passes : Passes t.root [] (t.namesInto dir)
  isDir : ∃ entries, t.root.get? (t.place dir) = some (.dir entries)

theorem entry_join_iff_open (hname : IsName name) : t.entry (Path.join dir name) = .ok e ↔
    t.Open dir ∧ t.root.get? (t.place dir ++ [name]) = some e := by
  have hnonempty : (Path.join dir name).isEmpty = false :=
    String.isEmpty_eq_false_iff.2 (Path.join_ne_empty hname.nonempty)
  rw [entry_eq_ok_iff, namesFromRoot_join t dir hname, Entry.passes_concat, place_join hname,
    ← resolved_eq, resolved_namesInto, and_iff_right hnonempty]
  exact and_congr_left' ⟨fun h => ⟨h.1, h.2⟩, fun h => ⟨h.1, h.2⟩⟩

theorem write_join (hname : IsName name) (h : t.write (Path.join dir name) content modified = .ok t') :
    t.Open dir ∧ ∀ entries, t.root.get? (t.place dir ++ [name]) ≠ some (.dir entries) := by
  have hover {e : Entry} (he : t.entry (Path.join dir name) = .ok e)
      (hfile : ∀ entries, e ≠ .dir entries) :
      t.Open dir ∧ ∀ entries, t.root.get? (t.place dir ++ [name]) ≠ some (.dir entries) := by
    obtain ⟨hopen, hplace⟩ := (entry_join_iff_open hname).1 he
    refine ⟨hopen, fun entries hdir => hfile entries ?_⟩
    rwa [hplace, Option.some.injEq] at hdir
  rw [write, namesFromRoot_join t dir hname, List.dropLast_concat] at h
  split at h
  case h_1 => cases h
  case h_2 hentry => exact hover hentry (by simp)
  case h_3 hentry =>
    split at h
    case h_1 entries hwalk =>
      obtain ⟨hpasses, hdir⟩ := (Entry.walk_eq_ok_iff .root).1 hwalk
      rw [← resolved_eq, resolved_namesInto] at hdir
      refine ⟨⟨hpasses, entries, hdir⟩, fun others hthere => ?_⟩
      rw [(entry_join_iff_open hname).2 ⟨⟨hpasses, entries, hdir⟩, hthere⟩] at hentry
      cases hentry
    case h_2 => cases h
    case h_3 => cases h
  case h_4 => cases h

theorem isDir_setAt {entries : List (String × Entry)} (hplace : place ≠ [])
    (hold : ∀ entries, t.root.get? place ≠ some (.dir entries))
    (h : t.root.get? names = some (.dir entries)) :
    ∃ entries', (t.setAt place x).root.get? names = some (.dir entries') := by
  have hapart : ¬place <+: names := fun hbelow => by
    rw [Entry.eq_of_below hold h hbelow] at hold
    exact hold entries h
  obtain ⟨e, he, halike⟩ := Entry.exists_alike (get?_setAt_of_apart hplace hapart) h
  obtain ⟨entries', rfl⟩ := halike.of_dir_left
  exact ⟨entries', he⟩

theorem Open.setAt (h : t.Open dir) (hplace : place ≠ [])
    (hold : ∀ entries, t.root.get? place ≠ some (.dir entries)) : (t.setAt place x).Open dir where
  passes := h.passes.mono fun _ _ _ hdir => isDir_setAt hplace hold hdir
  isDir := by
    obtain ⟨entries, hdir⟩ := h.isDir
    exact isDir_setAt hplace hold hdir

theorem readBytes_of_write (hname : IsName name)
    (h : t.write (Path.join dir name) content modified = .ok t') :
    t'.readBytes (Path.join dir name) = .ok content := by
  obtain ⟨hopen, hold⟩ := write_join hname h
  obtain ⟨entries, hdir⟩ := hopen.isDir
  have hne : t.place dir ++ [name] ≠ [] := by simp
  rw [write_eq_ok h, place_join hname, readBytes_eq_ok_iff]
  refine ⟨modified, (entry_join_iff_open hname).2 ⟨hopen.setAt hne hold, ?_⟩⟩
  exact get?_setAt_concat hdir

/-- Every way to a file that keeps clear of a directory at the top still leads there. -/
structure Spares (top : String) (t t' : FileTree) : Prop where
  cwd : t'.cwd = t.cwd
  kept (q : String) (bytes : ByteArray) :
    (∀ l, l <+: t.namesFromRoot q → ¬[top] <+: resolved l) →
      t.readBytes q = .ok bytes → t'.readBytes q = .ok bytes

namespace Spares

variable {top : String} {t'' : FileTree}

theorem refl (top : String) (t : FileTree) : Spares top t t :=
  ⟨rfl, fun _ _ _ h => h⟩

theorem trans (h : Spares top t t') (h' : Spares top t' t'') : Spares top t t'' where
  cwd := h'.cwd.trans h.cwd
  kept q bytes hapart hq := by
    refine h'.kept q bytes ?_ (h.kept q bytes hapart hq)
    rwa [namesFromRoot, h.cwd]

theorem place_eq (h : Spares top t t') (p : String) : t'.place p = t.place p := by
  rw [place, place, namesFromRoot, namesFromRoot, h.cwd]

theorem setAt (x : Option Entry) (hplace : [top] <+: place) : Spares top t (t.setAt place x) where
  cwd := rfl
  kept q bytes hapart hq := by
    have hne : place ≠ [] := List.ne_nil_of_mem (hplace.subset (List.mem_singleton_self top))
    exact readBytes_setAt_of_apart hne (fun l hl h => hapart l hl (hplace.trans h)) hq

theorem write (hp : [top] <+: t.place p) (h : t.write p content modified = .ok t') :
    Spares top t t' := by
  rw [write_eq_ok h]
  exact setAt _ hp

theorem removeFile (hp : [top] <+: t.place p) (h : t.removeFile p = .ok t') : Spares top t t' := by
  rw [removeFile_eq_ok h]
  exact setAt _ hp

theorem renameFile {source target : String} (hsource : [top] <+: t.place source)
    (htarget : [top] <+: t.place target) (h : t.renameFile source target = .ok t') :
    Spares top t t' := by
  obtain ⟨content, modified, t₁, -, hwrite, hremove⟩ := renameFile_eq_ok h
  have hwritten : Spares top t t₁ := write htarget hwrite
  exact hwritten.trans (removeFile (by rwa [hwritten.place_eq]) hremove)

theorem makeDirs {passed rest : List String} (hnames : passed ++ names = top :: rest)
    (h : makeDirs passed names t = .ok t') : Spares top t t' := by
  induction names generalizing passed t with
  | nil =>
    cases h
    exact refl top _
  | cons next names ih =>
    have hnames' : passed ++ [next] ++ names = top :: rest := by simpa using hnames
    simp only [FileTree.makeDirs] at h
    split at h
    case h_1 => exact ih hnames' h
    case h_2 => cases h
    case h_3 =>
      refine (setAt _ ?_).trans (ih hnames' h)
      cases passed with
      | nil =>
        cases hnames
        exact List.prefix_rfl
      | cons first passed =>
        cases hnames
        exact List.prefix_append _ _

theorem createDirs (hp : [top] <+: t.place p) (h : t.createDirs p = .ok t') : Spares top t t' := by
  rw [FileTree.createDirs] at h
  split at h
  case isTrue =>
    cases h
    exact refl top _
  case isFalse =>
    obtain ⟨rest, hrest⟩ := hp
    exact makeDirs hrest.symm h

end Spares

end FileTree

end EbuildAudit
