import EbuildAudit.Text.Basic

namespace EbuildAudit.Profile

open Text

def step (names : List String) (part : String) : Option (List String) :=
  if part = "" || part = "." then some names
  else if part = ".." then
    match names with
    | [] => none
    | _ :: names => some names
  else some (part :: names)

/-- A relative path from a directory; none if it leaves the top. -/
def resolveRelative (dir rel : String) : Option String := do
  let start := ((splitOn '/' dir).filter (!·.isEmpty)).reverse
  let names ← (splitOn '/' rel).foldlM step start
  some (joinWith "/" names.reverse)

def trimSlashes (s : String) : String :=
  String.ofList (trimWhile (· = '/') s.toList)

def afterSlashes : List Char → List (List Char)
  | [] => []
  | c :: cs => if c = '/' then cs :: afterSlashes cs else afterSlashes cs

def dirParents (path : String) : List String :=
  let path := trimSlashes path
  if path.isEmpty then []
  else path :: (afterSlashes path.toList.reverse).map (String.ofList ·.reverse)

inductive EntryKind
  | atoms
  | atomKeywords
  | atomUse
  | use
  deriving DecidableEq, Repr

structure Description where
  arch : String
  path : String
  status : String
  line : Nat
  deriving DecidableEq, Repr

structure MalformedLine where
  line : Nat
  text : String
  deriving DecidableEq, Repr

structure ProfileEntry where
  file : String
  kind : EntryKind
  line : Nat
  tokens : List String
  deriving DecidableEq, Repr

structure Data where
  categories : List String
  categoryDirs : List String
  arches : List String
  profiles : List Description
  malformed : List MalformedLine
  globalUse : List String
  localUse : List (String × List String)
  useExpand : List String
  dirs : List String
  parents : List (String × List String)
  eapis : List (String × String)
  deprecated : List (String × String)
  entries : List ProfileEntry
  deriving DecidableEq, Repr

namespace Data

def empty : Data :=
  ⟨[], [], [], [], [], [], [], [], [], [], [], [], []⟩

def eapi (data : Data) (dir : String) : String :=
  (data.eapis.lookup dir).getD "0"

def parentsOf (data : Data) (dir : String) : List String :=
  (data.parents.lookup dir).getD []

def unmet (data : Data) (seen : List String) : Nat :=
  data.parents.countP (·.1 ∉ seen)

theorem unmet_le (data : Data) {seen seen' : List String} (h : seen ⊆ seen') :
    data.unmet seen' ≤ data.unmet seen := by
  apply List.countP_mono_left
  intro entry _ hentry
  exact decide_eq_true fun hmem => of_decide_eq_true hentry (h hmem)

theorem unmet_lt {data : Data} {seen : List String} {dir : String} (hdir : dir ∉ seen)
    (hparents : data.parentsOf dir ≠ []) : data.unmet (dir :: seen) < data.unmet seen := by
  cases hlookup : data.parents.lookup dir with
  | none => simp [parentsOf, hlookup] at hparents
  | some parents =>
    obtain ⟨before, after, hentries, -⟩ := List.lookup_eq_some_iff.1 hlookup
    have hsub := List.subset_cons_self dir seen
    have hbefore := unmet_le { data with parents := before } hsub
    have hafter := unmet_le { data with parents := after } hsub
    simp only [unmet] at hbefore hafter
    have hmet : decide (dir ∉ dir :: seen) = false := by simp
    have hnew : decide (dir ∉ seen) = true := by simpa using hdir
    simp only [unmet, hentries, List.countP_append, List.countP_cons, hmet, hnew]
    simp only [Bool.false_eq_true, if_false, if_true]
    omega

end Data

structure Walk where
  seen : List String
  stack : List String

abbrev Walk.Onward (w : Walk) : Type :=
  { w' : Walk // w.seen ⊆ w'.seen }

namespace Data

mutual

/-- Visits a directory after its parents, unless it was met before. -/
def visit (data : Data) (w : Walk) (dir : String) : w.Onward :=
  if _h : dir ∈ w.seen then ⟨w, List.Subset.refl _⟩
  else
    let above := data.visitAll { w with seen := dir :: w.seen } (data.parentsOf dir)
    ⟨{ above.1 with stack := above.1.stack ++ [dir] },
      fun _ hmem => above.2 (List.mem_cons_of_mem dir hmem)⟩
termination_by (data.unmet w.seen, 1)
decreasing_by
  -- A directory without parents is not counted, but there is nothing to visit above it.
  by_cases hparents : data.parentsOf dir = []
  · rw [hparents]
    exact .right' _ (data.unmet_le (List.subset_cons_self dir w.seen)) Nat.one_pos
  · exact .left _ _ (unmet_lt _h hparents)

def visitAll (data : Data) (w : Walk) : List String → w.Onward
  | [] => ⟨w, List.Subset.refl _⟩
  | dir :: dirs =>
    let first := data.visit w dir
    let rest := data.visitAll first.1 dirs
    ⟨rest.1, List.Subset.trans first.2 rest.2⟩
termination_by dirs => (data.unmet w.seen, 2 * dirs.length)
decreasing_by
  · exact .right _ (by simp only [List.length_cons]; omega)
  · exact .right' _ (data.unmet_le first.2) (by simp only [List.length_cons]; omega)

end

/-- The directories a profile inherits from and the profile itself, parents first. -/
def stack (data : Data) (dir : String) : List String :=
  (data.visit ⟨[], []⟩ dir).1.stack

end Data

structure UseFlags where
  global : List String
  expand : List String
  localUse : List (String × List String)
  implicit : List String
  deriving DecidableEq, Repr

namespace UseFlags

def ofData (data : Data) : UseFlags where
  global := data.globalUse
  expand := data.useExpand
  localUse := data.localUse
  implicit := data.arches

def isKnown (flags : UseFlags) (flag : String) : Bool :=
  flags.global.contains flag || flags.expand.contains flag || flags.implicit.contains flag ||
    flags.localUse.any (·.2.contains flag)

end UseFlags

end EbuildAudit.Profile
