import EbuildAudit.Addon.Cache
import EbuildAudit.Proofs.FileTree
import EbuildAudit.Proofs.Json.RoundTrip
import EbuildAudit.Proofs.Text.Pieces

namespace EbuildAudit

namespace Envelope

variable {e : Envelope}

theorem decode_of_record {j identity version value : Json} {text : String} {n : Nat}
    (hrepeated : hasRepeatedField j = false)
    (hfields : j.record? fieldNames = some [some identity, some version, some value])
    (hidentity : identity.asString? = some text) (hversion : version.asNat? versionBound = some n) :
    decode j = some ⟨text, n, value.merged⟩ := by
  rw [decode, hrepeated, hfields]
  simp [hidentity, hversion]

theorem asNat?_ofNat {bound n : Nat} (h : n < bound) : (Json.ofNat n).asNat? bound = some n := by
  simp [Json.ofNat, Json.asNat?, h]

theorem decode_encode (hvalue : e.value.Proper) (hversion : e.version < versionBound) :
    decode (encode e) = some e := by
  rw [decode_of_record (j := encode e) rfl rfl rfl (asNat?_ofNat hversion), hvalue.merged_eq]

theorem encode_proper (hvalue : e.value.Proper) (hversion : e.version < versionBound) :
    (encode e).Proper := by
  have hword : Json.isWord e.version = true := by
    simp only [Json.isWord, Bool.and_eq_true, decide_eq_true_eq]
    rw [versionBound] at hversion
    omega
  refine .obj (by decide : ["identity", "version", "value"].Nodup) ?_
  simp only [List.forall_mem_cons, List.not_mem_nil, false_imp_iff, forall_const, and_true]
  exact ⟨.str _, .int hword, hvalue⟩

theorem parse?_print (hvalue : e.value.Proper) (hversion : e.version < versionBound) :
    parse? (encode e).print = if e.value.depth < Json.depthLimit then some e else none := by
  have hdepth : (encode e).depth ≤ Json.depthLimit ↔ e.value.depth < Json.depthLimit := by
    rw [Nat.lt_iff_add_one_le]
    simp [encode, Json.ofNat, Json.depth, Json.depthFields]
  rw [parse?, Json.parseRaw?_print (encode_proper hvalue hversion)]
  by_cases h : e.value.depth < Json.depthLimit
  · rw [if_pos h, if_pos (hdepth.2 h), Option.bind_eq_bind, Option.bind_some,
      decode_encode hvalue hversion]
  · rw [if_neg h, if_neg (mt hdepth.1 h)]
    rfl

end Envelope

namespace Path

variable {p name stem : String}

theorem component?_eq_name (h : component? p = some (.name name)) : p = name := by
  unfold component? at h
  split at h <;> cases h
  rfl

theorem noSlash_of_fileName? (h : fileName? p = some name) : '/' ∉ name.toList := by
  have hlast : (components p).getLast? = some (.name name) := by
    rw [fileName?] at h
    split at h
    case h_1 s hlast =>
      cases h
      exact hlast
    case h_2 => cases h
  have hmem : Component.name name ∈ components p := List.mem_of_getLast? hlast
  rw [components, List.mem_append, List.mem_filterMap] at hmem
  rcases hmem with hstart | ⟨part, hpart, hname⟩
  · split at hstart
    · simp at hstart
    · split at hstart <;> simp at hstart
  · rw [← component?_eq_name hname]
    exact Text.not_mem_toList_of_mem_splitOn hpart

theorem splitExtension_subset {c : Char} (h : c ∈ (splitExtension name).1.toList) :
    c ∈ name.toList := by
  rw [splitExtension] at h
  split at h
  case h_1 stem hdrop =>
    split at h
    case isTrue => exact h
    case isFalse =>
      rw [String.toList_ofList, List.mem_reverse] at h
      have hback : c ∈ name.toList.reverse.dropWhile (· != '.') := by
        rw [hdrop]
        exact List.mem_cons_of_mem _ h
      exact List.mem_reverse.1 ((List.dropWhile_sublist _).subset hback)
  case h_2 => exact h

theorem noSlash_of_fileStem? (h : fileStem? p = some stem) : '/' ∉ stem.toList := by
  obtain ⟨name, hname, rfl⟩ := Option.map_eq_some_iff.1 h
  exact fun hmem => noSlash_of_fileName? hname (splitExtension_subset hmem)

theorem parent?_of_endsWith (h : FileTree.IsName name) (hpath : EndsWith name p) :
    ∃ dir, parent? p = some dir := by
  have hlast := hpath.getLast?_ne_slash h
  have hempty : p.toList.reverse.isEmpty = false := by simpa using hpath.nonempty h
  have hslash : (p.toList.reverse == ['/']) = false := by
    rw [beq_eq_false_iff_ne]
    intro heq
    rw [List.reverse_eq_iff] at heq
    rw [heq] at hlast
    exact hlast rfl
  rw [parent?, trimBack_of_endsWith h hpath]
  exact ⟨_, if_neg (by simp [hempty, hslash])⟩

end Path

namespace Cache

open FileTree (IsName)

variable {c : Cache} {files : FileTree} {key key' : CacheKey} {value j : Json}
  {bytes : ByteArray} {addon other p : String}

theorem isName_append {stem : String} (ending : List Char) {last : Char}
    (hstem : '/' ∉ stem.toList) (hending : '/' ∉ ending) (hslash : '/' ≠ last) (hdot : last ≠ '.') :
    IsName (stem ++ String.ofList (ending ++ [last])) := by
  have hlast : (stem ++ String.ofList (ending ++ [last])).toList.getLast? = some last := by
    simp [← List.append_assoc]
  refine ⟨?_, ?_, ?_, ?_⟩
  · intro h
    rw [h] at hlast
    cases hlast
  · simp [hstem, hending, hslash]
  · intro h
    rw [h] at hlast
    cases hlast
    exact hdot rfl
  · intro h
    rw [h] at hlast
    cases hlast
    exact hdot rfl

theorem isName_json (h : '/' ∉ addon.toList) : IsName (addon ++ ".json") :=
  isName_append ['.', 'j', 's', 'o'] h (by decide) (by decide) (by decide)

theorem isName_draft {stem : String} (h : '/' ∉ stem.toList) : IsName (stem ++ ".json.tmp") :=
  isName_append ['.', 'j', 's', 'o', 'n', '.', 't', 'm'] h (by decide) (by decide) (by decide)

theorem place_path (h : '/' ∉ addon.toList) :
    files.place (c.path addon) = files.place c.dir ++ [addon ++ ".json"] :=
  FileTree.place_join (isName_json h)

theorem eq_of_place_path (h : '/' ∉ addon.toList) (h' : '/' ∉ other.toList)
    (hplace : files.place (c.path other) = files.place (c.path addon)) : other = addon := by
  rw [place_path h, place_path h', List.append_cancel_left_eq, List.cons.injEq] at hplace
  exact String.append_left_inj _ |>.1 hplace.1

theorem draft_ne_json (stem : String) : stem ++ ".json.tmp" ≠ other ++ ".json" := by
  intro h
  have hlast := congrArg (fun s : String => s.toList.getLast?) h
  simp at hlast

theorem eq_of_place_draft (h : '/' ∉ addon.toList) (h' : '/' ∉ other.toList)
    (hplace : files.place (c.path other) = files.place (draftPath (c.path addon))) :
    other = addon := by
  rw [draftPath] at hplace
  split at hplace
  case h_1 dir stem _ hstem =>
    rw [place_path h', FileTree.place_join (isName_draft (Path.noSlash_of_fileStem? hstem))]
      at hplace
    have hname := (List.append_inj' hplace rfl).2
    exact absurd (List.cons.inj hname).1.symm (draft_ne_json stem)
  case h_2 => exact eq_of_place_path h h' hplace

theorem place_draft_ne_nil (h : '/' ∉ addon.toList) :
    files.place (draftPath (c.path addon)) ≠ [] := by
  rw [draftPath]
  split
  case h_1 dir stem _ hstem =>
    simp [FileTree.place_join (isName_draft (Path.noSlash_of_fileStem? hstem))]
  case h_2 => simp [place_path h]

theorem endsWith_path (h : '/' ∉ addon.toList) :
    Path.EndsWith (addon ++ ".json") (c.path addon) := by
  rw [path]
  by_cases hdir : c.dir = ""
  · have hjoin : Path.join c.dir (addon ++ ".json") = addon ++ ".json" := by simp [Path.join, hdir]
    rw [hjoin]
    exact .alone
  · exact Path.endsWith_join hdir (isName_json h)

theorem draftPath_path (h : '/' ∉ addon.toList) :
    ∃ dir stem, draftPath (c.path addon) = Path.join dir (stem ++ ".json.tmp") ∧
      '/' ∉ stem.toList := by
  obtain ⟨dir, hdir⟩ := Path.parent?_of_endsWith (isName_json h) (endsWith_path (c := c) h)
  have hname := Path.fileName?_of_endsWith (isName_json h) (endsWith_path (c := c) h)
  have hstem : Path.fileStem? (c.path addon) = some (Path.splitExtension (addon ++ ".json")).1 := by
    rw [Path.fileStem?, hname, Option.map_some]
  exact ⟨dir, _, by rw [draftPath, hdir, hstem], Path.noSlash_of_fileStem? hstem⟩

theorem place_draft_ne (h : '/' ∉ addon.toList) :
    files.place (draftPath (c.path addon)) ≠ files.place (c.path addon) := by
  obtain ⟨dir, stem, hdraft, hstem⟩ := draftPath_path (c := c) h
  rw [hdraft, FileTree.place_join (isName_draft hstem), place_path h]
  intro hplace
  exact draft_ne_json stem (List.cons.inj (List.append_inj' hplace rfl).2).1

theorem readBytes_attempt {e : Except FileError FileTree} {path : String}
    {next : FileTree → Attempt CacheError}
    (h : (attempt e files path next).1.readBytes p = .ok bytes) : files.readBytes p = .ok bytes ∨
      ∃ files', e = .ok files' ∧ (next files').1.readBytes p = .ok bytes := by
  cases e with
  | error cause => exact .inl h
  | ok files' => exact .inr ⟨files', rfl, h⟩

theorem readBytes_store (haddon : '/' ∉ key.addon.toList) (hother : '/' ∉ other.toList)
    (h : (c.store files key value).1.readBytes (c.path other) = .ok bytes) :
    (other = key.addon ∧
        bytes = (Envelope.encode ⟨key.identity, key.version, value⟩).print.toUTF8) ∨
      files.readBytes (c.path other) = .ok bytes := by
  rcases readBytes_attempt h with h | ⟨files₁, hdirs, h⟩
  · exact .inr h
  have hold (h : files₁.readBytes (c.path other) = .ok bytes) :
      files.readBytes (c.path other) = .ok bytes :=
    FileTree.readBytes_createDirs (isName_json hother) hdirs h
  rcases readBytes_attempt h with h | ⟨files₂, hwrite, h⟩
  · exact .inr (hold h)
  have hwritten (h : files₂.readBytes (c.path other) = .ok bytes) : (other = key.addon ∧
        bytes = (Envelope.encode ⟨key.identity, key.version, value⟩).print.toUTF8) ∨
      files.readBytes (c.path other) = .ok bytes := by
    rcases FileTree.readBytes_write (place_draft_ne_nil haddon) hwrite h with ⟨hplace, hbytes⟩ | h
    · exact .inl ⟨eq_of_place_draft haddon hother hplace, hbytes⟩
    · exact .inr (hold h)
  rcases readBytes_attempt h with h | ⟨files₃, hrename, h⟩
  · exact hwritten h
  -- What was moved into the place of the file is what had been written to the draft.
  rcases FileTree.readBytes_renameFile (by simp [place_path haddon]) hrename h with
    ⟨hplace, hmoved⟩ | h
  · exact .inl ⟨eq_of_place_path haddon hother hplace,
      FileTree.readBytes_write_self hwrite (place_draft_ne_nil haddon) hmoved⟩
  · exact hwritten h

theorem attempt_eq_none {e : Except FileError FileTree} {path : String}
    {next : FileTree → Attempt CacheError} (h : (attempt e files path next).2 = none) :
    ∃ files', e = .ok files' ∧ (next files').2 = none ∧
      attempt e files path next = next files' := by
  cases e with
  | error cause => cases h
  | ok files' => exact ⟨files', rfl, h, rfl⟩

theorem readBytes_of_store (haddon : '/' ∉ key.addon.toList)
    (h : (c.store files key value).2 = none) :
    (c.store files key value).1.readBytes (c.path key.addon) =
      .ok (Envelope.encode ⟨key.identity, key.version, value⟩).print.toUTF8 := by
  rw [store] at h ⊢
  obtain ⟨files₁, -, h, heq⟩ := attempt_eq_none h
  rw [heq]
  obtain ⟨files₂, hwrite, h, heq⟩ := attempt_eq_none h
  rw [heq]
  obtain ⟨files₃, hrename, h, heq⟩ := attempt_eq_none h
  rw [heq]
  obtain ⟨content, modified, files', hdraft, htarget, hremove⟩ :=
    FileTree.renameFile_eq_ok hrename
  have hcontent := FileTree.readBytes_write_self hwrite (place_draft_ne_nil haddon)
    (FileTree.readBytes_eq_ok_iff.2 ⟨modified, hdraft⟩)
  rw [← hcontent]
  exact FileTree.readBytes_removeFile_of_ne hremove (place_draft_ne_nil haddon)
    (place_draft_ne haddon) (FileTree.readBytes_of_write (isName_json haddon) htarget)

theorem attempt_spares {top path : String} {e : Except FileError FileTree}
    {next : FileTree → Attempt CacheError}
    (hstep : ∀ files', e = .ok files' → FileTree.Spares top files files')
    (hnext : ∀ files', e = .ok files' → FileTree.Spares top files' (next files').1) :
    FileTree.Spares top files (attempt e files path next).1 := by
  cases e with
  | error cause => exact .refl top files
  | ok files' => exact (hstep files' rfl).trans (hnext files' rfl)

theorem store_spares {top : String} (hdir : [top] <+: files.place c.dir)
    (hpath : [top] <+: files.place (c.path key.addon))
    (hdraft : [top] <+: files.place (draftPath (c.path key.addon))) (value : Json) :
    FileTree.Spares top files (c.store files key value).1 := by
  have hcreate (files₁ : FileTree) (h : files.createDirs c.dir = .ok files₁) :=
    FileTree.Spares.createDirs hdir h
  refine attempt_spares hcreate fun files₁ h₁ => ?_
  rw [← (hcreate files₁ h₁).place_eq] at hpath hdraft
  have hwrite (files₂ : FileTree) {content : ByteArray}
      (h : files₁.write (draftPath (c.path key.addon)) content 0 = .ok files₂) :=
    FileTree.Spares.write hdraft h
  refine attempt_spares (fun files₂ => hwrite files₂) fun files₂ h₂ => ?_
  rw [← (hwrite files₂ h₂).place_eq] at hpath hdraft
  exact attempt_spares (fun _ => .renameFile hdraft hpath) fun files₃ _ => .refl top files₃

theorem load?_eq_some : c.load? files key = some j ↔ ∃ bytes text,
    files.readBytes (c.path key.addon) = .ok bytes ∧ String.fromUTF8? bytes = some text ∧
      Envelope.parse? text = some ⟨key.identity, key.version, j⟩ := by
  have htext {text : String} : (files.readText (c.path key.addon)).toOption = some text ↔
      ∃ bytes, files.readBytes (c.path key.addon) = .ok bytes ∧
        String.fromUTF8? bytes = some text := by
    rw [← FileTree.readText_eq_ok_iff]
    cases files.readText (c.path key.addon) <;> simp [Except.toOption]
  simp only [load?, Option.bind_eq_bind, Option.bind_eq_some_iff, Option.ite_none_right_eq_some,
    Option.some.injEq, htext]
  constructor
  · rintro ⟨text, ⟨bytes, hbytes, hread⟩, ⟨_, _, _⟩, hparse, ⟨rfl, rfl⟩, rfl⟩
    exact ⟨bytes, text, hbytes, hread, hparse⟩
  · rintro ⟨bytes, text, hbytes, hread, hparse⟩
    exact ⟨text, ⟨bytes, hbytes, hread⟩, _, hparse, ⟨rfl, rfl⟩, rfl⟩

theorem fromUTF8?_toUTF8 (s : String) : String.fromUTF8? s.toUTF8 = some s :=
  dif_pos s.isValidUTF8

/-- Writing a value to the cache gives that value to that key, and nothing to any other. -/
theorem load?_store (haddon : '/' ∉ key.addon.toList) (haddon' : '/' ∉ key'.addon.toList)
    (hversion : key.version < Envelope.versionBound) (hvalue : value.Proper)
    (h : c.load? (c.store files key value).1 key' = some j) :
    (key' = key ∧ j = value) ∨ c.load? files key' = some j := by
  obtain ⟨bytes, text, hbytes, htext, hparse⟩ := load?_eq_some.1 h
  rcases readBytes_store haddon haddon' hbytes with ⟨hsame, rfl⟩ | hbefore
  · left
    rw [fromUTF8?_toUTF8, Option.some.injEq] at htext
    subst htext
    rw [Envelope.parse?_print hvalue hversion, Option.ite_none_right_eq_some,
      Option.some.injEq] at hparse
    obtain ⟨addon, version, identity⟩ := key
    obtain ⟨addon', version', identity'⟩ := key'
    obtain ⟨-, heq⟩ := hparse
    cases heq
    cases hsame
    exact ⟨rfl, rfl⟩
  · exact .inr (load?_eq_some.2 ⟨bytes, text, hbefore, htext, hparse⟩)

theorem load?_of_store (haddon : '/' ∉ key.addon.toList)
    (hversion : key.version < Envelope.versionBound) (hvalue : value.Proper)
    (hdepth : value.depth < Json.depthLimit) (h : (c.store files key value).2 = none) :
    c.load? (c.store files key value).1 key = some value := by
  refine load?_eq_some.2 ⟨_, _, readBytes_of_store haddon h, fromUTF8?_toUTF8 _, ?_⟩
  rw [Envelope.parse?_print hvalue hversion, if_pos hdepth]

theorem readBytes_removeAll {removed : Nat} {paths : List String}
    (h : (removeAll removed files paths).1.readBytes p = .ok bytes) :
    files.readBytes p = .ok bytes := by
  induction paths generalizing removed files with
  | nil => exact h
  | cons path paths ih =>
    rw [removeAll] at h
    cases hremove : files.removeFile path with
    | error cause =>
      rw [hremove] at h
      exact h
    | ok files' =>
      rw [hremove] at h
      exact FileTree.readBytes_removeFile hremove (ih h)

theorem readBytes_clear (h : (c.clear files).1.readBytes p = .ok bytes) :
    files.readBytes p = .ok bytes := by
  rw [clear] at h
  split at h
  case isTrue => exact h
  case isFalse =>
    split at h
    case h_1 => exact h
    case h_2 => exact readBytes_removeAll h

theorem load?_clear (h : c.load? (c.clear files).1 key = some j) : c.load? files key = some j := by
  obtain ⟨bytes, text, hbytes, hrest⟩ := load?_eq_some.1 h
  exact load?_eq_some.2 ⟨bytes, text, readBytes_clear hbytes, hrest⟩

end Cache

end EbuildAudit
