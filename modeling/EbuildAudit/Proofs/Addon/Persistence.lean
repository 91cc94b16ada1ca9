import EbuildAudit.Addon.Catalog
import EbuildAudit.Package.Index
import EbuildAudit.Profile.Codec
import EbuildAudit.Proofs.Addon.Caching
import EbuildAudit.Proofs.Json.Record

namespace EbuildAudit.Package

open Json (Encodes)

theorem encodes_flag (f : Ebuild.IuseFlag) : Encodes decodeFlag 1 f (encodeFlag f) := by
  have hname : Encodes Json.asString? 0 f.name (.str f.name) := .str f.name
  have hdefault : Encodes (·.asOptional? Json.asBool?) 0 f.default (.ofOption .bool f.default) :=
    .option .bool (by simp)
  refine .record (by decide : ["name", "default"].Nodup) ?_ fun hrecord => ?_
  · simp [hname.toShallow, hdefault.toShallow]
  · have hread := hdefault.decode_eq
    simp only [List.map_cons, List.map_nil] at hrecord hread
    simp [decodeFlag, hrecord, hname.decode_eq, hread]

theorem IndexedVersion.encodes (v : IndexedVersion) :
    Encodes IndexedVersion.decode 3 v v.encode := by
  have hversion : Encodes Json.asString? 2 v.version (.str v.version) := .str v.version
  have hiuse : Encodes (·.asListOf? decodeFlag) 2 v.iuse (.arr (v.iuse.map encodeFlag)) :=
    .list fun f _ => encodes_flag f
  have hkeywords : Encodes (·.asListOf? Json.asString?) 2 v.keywords (.strings v.keywords) :=
    .strings v.keywords
  refine .record (by decide : ["version", "iuse", "keywords"].Nodup) ?_ fun hrecord => ?_
  · simp [hversion.toShallow, hiuse.toShallow, hkeywords.toShallow]
  · simp only [List.map_cons, List.map_nil] at hrecord
    simp [decode, hrecord, hversion.decode_eq, hiuse.decode_eq, hkeywords.decode_eq]

theorem Index.decode_of_record {j packages : Json} {i : Index}
    (hrecord : j.record? ["packages"] = some [some packages])
    (hpackages : packages.asMapOf? (·.asListOf? IndexedVersion.decode) = some i.packages) :
    decode j = some i := by
  rw [decode, hrecord]
  simp [hpackages]

theorem Index.encodes {i : Index} (h : Ascending.Sorted i.packages) :
    Encodes Index.decode 6 i i.encode := by
  have hversions (entry : String × List IndexedVersion) :
      Encodes (·.asListOf? IndexedVersion.decode) 4 entry.2
        (.arr (entry.2.map IndexedVersion.encode)) :=
    .list fun v _ => v.encodes
  have hpackages := Encodes.map (fun versions => .arr (versions.map IndexedVersion.encode)) h
    fun entry _ => hversions entry
  exact .record (by decide : ["packages"].Nodup) (List.forall_mem_singleton.2 hpackages.toShallow)
    fun hrecord => decode_of_record hrecord hpackages.decode_eq

end EbuildAudit.Package

namespace EbuildAudit.Profile

open Json (Encodes)

variable {j : Json}

/-- Sets and maps are in order, and lines are numbered by words. -/
structure Data.Regular (data : Data) : Prop where
  categoryDirs : data.categoryDirs.Pairwise (· < ·)
  arches : data.arches.Pairwise (· < ·)
  profiles : ∀ d ∈ data.profiles, d.line < wordBound
  malformed : ∀ m ∈ data.malformed, m.line < wordBound
  globalUse : data.globalUse.Pairwise (· < ·)
  localUse : Ascending.Sorted data.localUse
  localFlags : ∀ entry ∈ data.localUse, entry.2.Pairwise (· < ·)
  useExpand : data.useExpand.Pairwise (· < ·)
  dirs : data.dirs.Pairwise (· < ·)
  parents : Ascending.Sorted data.parents
  eapis : Ascending.Sorted data.eapis
  deprecated : Ascending.Sorted data.deprecated
  entries : ∀ e ∈ data.entries, e.line < wordBound

theorem EntryKind.decode_name (kind : EntryKind) : decode (.str kind.name) = some kind := by
  cases kind <;> decide

theorem encodes_line {n line : Nat} (h : line < wordBound) :
    Encodes (·.asNat? wordBound) n line (.ofNat line) :=
  .nat h (by rw [wordBound])

theorem Description.decode_of_record {line : Json} {d : Description}
    (hrecord : j.record? ["arch", "path", "status", "line"] =
      some [some (.str d.arch), some (.str d.path), some (.str d.status), some line])
    (hline : line.asNat? wordBound = some d.line) : decode j = some d := by
  rw [decode, hrecord]
  simp [Json.asString?, hline]

theorem Description.encodes {d : Description} (h : d.line < wordBound) :
    Encodes Description.decode 2 d d.encode := by
  have hline : Encodes (·.asNat? wordBound) 1 d.line (.ofNat d.line) := encodes_line h
  have hstr (s : String) : Encodes Json.asString? 1 s (.str s) := .str s
  refine .record (by decide : ["arch", "path", "status", "line"].Nodup) ?_ fun hrecord =>
    decode_of_record hrecord hline.decode_eq
  simp [(hstr _).toShallow, hline.toShallow]

theorem MalformedLine.decode_of_record {line : Json} {m : MalformedLine}
    (hrecord : j.record? ["line", "text"] = some [some line, some (.str m.text)])
    (hline : line.asNat? wordBound = some m.line) : decode j = some m := by
  rw [decode, hrecord]
  simp [Json.asString?, hline]

theorem MalformedLine.encodes {m : MalformedLine} (h : m.line < wordBound) :
    Encodes MalformedLine.decode 2 m m.encode := by
  have hline : Encodes (·.asNat? wordBound) 1 m.line (.ofNat m.line) := encodes_line h
  have htext : Encodes Json.asString? 1 m.text (.str m.text) := .str m.text
  refine .record (by decide : ["line", "text"].Nodup) ?_ fun hrecord =>
    decode_of_record hrecord hline.decode_eq
  simp [hline.toShallow, htext.toShallow]

theorem ProfileEntry.decode_of_record {line tokens : Json} {e : ProfileEntry}
    (hrecord : j.record? ["file", "kind", "line", "tokens"] =
      some [some (.str e.file), some (.str e.kind.name), some line, some tokens])
    (hline : line.asNat? wordBound = some e.line)
    (htokens : tokens.asListOf? Json.asString? = some e.tokens) : decode j = some e := by
  rw [decode, hrecord]
  simp [Json.asString?, EntryKind.decode_name, hline, htokens]

theorem ProfileEntry.encodes {e : ProfileEntry} (h : e.line < wordBound) :
    Encodes ProfileEntry.decode 2 e e.encode := by
  have hline : Encodes (·.asNat? wordBound) 1 e.line (.ofNat e.line) := encodes_line h
  have hstr (s : String) : Encodes Json.asString? 1 s (.str s) := .str s
  have htokens : Encodes (·.asListOf? Json.asString?) 1 e.tokens (.strings e.tokens) :=
    .strings e.tokens
  refine .record (by decide : ["file", "kind", "line", "tokens"].Nodup) ?_ fun hrecord =>
    decode_of_record hrecord hline.decode_eq htokens.decode_eq
  simp [(hstr _).toShallow, hline.toShallow, htokens.toShallow]

theorem Data.encodes {data : Data} (h : data.Regular) : Encodes Data.decode 4 data data.encode := by
  have hlist (xs : List String) : Encodes (·.asListOf? Json.asString?) 3 xs (.strings xs) :=
    .strings xs
  have hset {xs : List String} (h : xs.Pairwise (· < ·)) : Encodes Json.asSet? 3 xs (.strings xs) :=
    .set h
  have hprofiles : Encodes (·.asListOf? Description.decode) 3 data.profiles
      (.arr (data.profiles.map Description.encode)) :=
    .list fun d hd => Description.encodes (h.profiles d hd)
  have hmalformed : Encodes (·.asListOf? MalformedLine.decode) 3 data.malformed
      (.arr (data.malformed.map MalformedLine.encode)) :=
    .list fun m hm => MalformedLine.encodes (h.malformed m hm)
  have hentries : Encodes (·.asListOf? ProfileEntry.decode) 3 data.entries
      (.arr (data.entries.map ProfileEntry.encode)) :=
    .list fun e he => ProfileEntry.encodes (h.entries e he)
  have hlocal : Encodes (·.asMapOf? Json.asSet?) 3 data.localUse
      (encodeMap Json.strings data.localUse) :=
    .map Json.strings h.localUse fun entry hentry => .set (h.localFlags entry hentry)
  have hparents : Encodes (·.asMapOf? (·.asListOf? Json.asString?)) 3 data.parents
      (encodeMap Json.strings data.parents) :=
    .map Json.strings h.parents fun entry _ => .strings entry.2
  have hmap {texts : List (String × String)} (h : Ascending.Sorted texts) :
      Encodes (·.asMapOf? Json.asString?) 3 texts (encodeMap .str texts) :=
    .map .str h fun entry _ => .str entry.2
  refine .record (by decide : fieldNames.Nodup) ?_ fun hrecord => ?_
  · simp [(hlist _).toShallow, hprofiles.toShallow, hmalformed.toShallow, hlocal.toShallow,
      hparents.toShallow, (hmap h.eapis).toShallow, (hmap h.deprecated).toShallow,
      hentries.toShallow]
  · simp only [List.map_cons, List.map_nil] at hrecord
    rw [decode, fieldNames, hrecord]
    dsimp only [Option.bind_eq_bind, Option.bind_some]
    rw [(hlist _).decode_eq, (hset h.categoryDirs).decode_eq, (hset h.arches).decode_eq,
      hprofiles.decode_eq, hmalformed.decode_eq, (hset h.globalUse).decode_eq, hlocal.decode_eq,
      (hset h.useExpand).decode_eq, (hset h.dirs).decode_eq, hparents.decode_eq,
      (hmap h.eapis).decode_eq, (hmap h.deprecated).decode_eq, hentries.decode_eq]
    rfl

end EbuildAudit.Profile

namespace EbuildAudit.Addon

/-- A value is what its written form is read as, and what a cache has that was given it. -/
structure Survives (addon : Addon) (value : AddonValue) : Prop where
  read : (addon.encode value).bind addon.decode = some value
  parsed (identity : String) {version : Nat} (hversion : version < Envelope.versionBound) :
    ∃ j, addon.encode value = some j ∧
      Envelope.parse? (Envelope.encode ⟨identity, version, j⟩).print = some ⟨identity, version, j⟩
  kept {c : Cache} {files : FileTree} {key : CacheKey} {j : Json} (haddon : '/' ∉ key.addon.toList)
    (hversion : key.version < Envelope.versionBound) (hencode : addon.encode value = some j)
    (hstored : (c.store files key j).2 = none) :
    (c.load? (c.store files key j).1 key).bind addon.decode = some value

theorem survives_of_encodes {addon : Addon} {value : AddonValue} {n : Nat} {j : Json}
    (hencode : addon.encode value = some j) (hj : Json.Encodes addon.decode n value j)
    (hn : n < Json.depthLimit) : addon.Survives value := by
  have hdepth : j.depth < Json.depthLimit := hj.depth_le.trans_lt hn
  constructor
  case read => rw [hencode, Option.bind_some, hj.decode_eq]
  case parsed =>
    intro identity version hversion
    exact ⟨j, hencode, by rw [Envelope.parse?_print hj.proper hversion, if_pos hdepth]⟩
  case kept =>
    intro c files key j' haddon hversion hencode' hstored
    obtain rfl : j = j' := Option.some.inj (hencode.symm.trans hencode')
    rw [Cache.load?_of_store haddon hversion hj.proper hdepth hstored, Option.bind_some,
      hj.decode_eq]

/-- What is kept of packages and of profiles survives. -/
theorem kept_values_survive :
    (∀ index : Package.Index, Ascending.Sorted index.packages →
      packages.Survives (.packages index)) ∧
    ∀ data : Profile.Data, data.Regular → profiles.Survives (.profiles data) := by
  constructor
  case left =>
    intro index hsorted
    have hindex := Package.Index.encodes hsorted
    have hread : packages.decode index.encode = some (.packages index) :=
      congrArg (Option.map AddonValue.packages) hindex.decode_eq
    exact survives_of_encodes rfl ⟨hindex.toShallow, hread⟩ (by decide)
  case right =>
    intro data hregular
    have hdata := Profile.Data.encodes hregular
    have hread : profiles.decode data.encode = some (.profiles data) :=
      congrArg (Option.map AddonValue.profiles) hdata.decode_eq
    exact survives_of_encodes rfl ⟨hdata.toShallow, hread⟩ (by decide)

theorem kept_values_survive_twoPackages :
    let index : Package.Index := ⟨[
      ("dev-libs/a",
        [⟨"1.0", [⟨"test", some false⟩, ⟨"doc", none⟩], ["~amd64", "x86"]⟩, ⟨"1.1", [], []⟩]),
      ("dev-libs/b\"c", [])]⟩
    let data : Profile.Data := { Profile.Data.empty with
      arches := ["amd64", "x86"]
      profiles := [⟨"amd64", "default/linux", "stable", 3⟩]
      malformed := [⟨4, "x86\tdefault"⟩]
      localUse := [("dev-libs/a", ["doc", "test"])]
      eapis := [("default", "7"), ("default/linux", "8")]
      entries := [⟨"default/linux/package.mask", .atoms, 1, ["dev-libs/a"]⟩] }
    let files : FileTree := ⟨.dir [("repo", .dir [])], []⟩
    let cache : Cache := ⟨"/repo/cache"⟩
    let key : CacheKey := ⟨"packages", 1, "HEAD"⟩
    let key' : CacheKey := ⟨"profiles", 2, "HEAD"⟩
    let stored := cache.store files key index.encode
    let stored' := cache.store stored.1 key' data.encode
    stored.2 = none ∧ stored'.2 = none ∧
      (cache.load? stored.1 key).bind packages.decode = some (.packages index) ∧
      (cache.load? stored'.1 key').bind profiles.decode = some (.profiles data) := by
  intro index data files cache key key' stored stored'
  have hsorted : Ascending.Sorted index.packages := by decide +kernel
  have hregular : data.Regular := by
    constructor <;> decide +kernel
  have hstored : stored.2 = none := by decide +kernel
  have hstored' : stored'.2 = none := by decide +kernel
  refine ⟨hstored, hstored', ?_, ?_⟩
  · exact (kept_values_survive.1 index hsorted).kept (by decide) (by decide) rfl hstored
  · exact (kept_values_survive.2 data hregular).kept (by decide) (by decide) rfl hstored'

end EbuildAudit.Addon
