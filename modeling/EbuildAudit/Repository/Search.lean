import EbuildAudit.Glob.Pattern
import EbuildAudit.Repository.Source

namespace EbuildAudit.Repository

open Glob (Pattern)

def searchChild (path name : String) : String :=
  if Path.components path = [.current] then name else Path.join path name

mutual

def descendants (path : String) : Entry → List (String × Entry)
  | .file .. => []
  | .dir entries => descendantsOf path entries

def descendantsOf (path : String) : List (String × Entry) → List (String × Entry)
  | [] => []
  | (name, entry) :: entries =>
    if isHidden name then descendantsOf path entries
    else
      let child := searchChild path name
      (child, entry) :: descendants child entry ++ descendantsOf path entries

end

def descendantsAt (files : FileTree) (path : String) : List (String × Entry) :=
  match files.entry path with
  | .ok entry => descendants path entry
  | .error _ => []

def searchStep (files : FileTree) (path name : String) : List String :=
  let next := searchChild path name
  if name = "." || name = ".." then if files.isDir path then [next] else []
  else if files.exists? next then [next] else []

def searchNames (files : FileTree) (path : String) (p : Pattern) : List String :=
  if files.isDir path then
    let dots := if p.tokens.head? = some (.char '.') then ["..", "."] else []
    let names := (visible (entriesAt files path)).map (·.1)
    (dots.filter p.matchesAnyCase).map (Path.join path) ++
      (names.filter p.matchesAnyCase).map (searchChild path)
  else []

/--
What the components of a pattern find from a path on. Below a recursive component the next one is
for the last name on the way down to any entry, and the directories are found where there is none.
-/
def searchFrom (files : FileTree) : Bool → List Pattern → String → List String
  | false, [], path => [path]
  | true, [], path => ((descendantsAt files path).filter (·.2.isDir)).map (·.1)
  | below, p :: ps, path =>
    if p.isRecursive then searchFrom files true ps path
    else if below then
      (descendantsAt files path).flatMap fun (child, _) =>
        if (Path.fileName? child).any p.matchesAnyCase then searchFrom files false ps child else []
    else
      let found := match p.literal? with
        | some name => searchStep files path name
        | none => searchNames files path p
      found.flatMap (searchFrom files false ps)

def patterns? (pattern : String) : Option (List Pattern) := do
  let _ ← (Pattern.parse pattern).toOption
  let components := Text.splitOn '/' pattern
  (if Path.isAbsolute pattern then components.tail else components).mapM fun component =>
    (Pattern.parse component).toOption

def search (files : FileTree) (pattern : String) : List String :=
  match patterns? pattern with
  | some ps => searchFrom files false ps (if Path.isAbsolute pattern then "/" else ".")
  | none => []

def ebuildPaths (files : FileTree) (root : String) : List String :=
  search files (Path.join root "*/*/*.ebuild")

def profilePaths (files : FileTree) (root : String) : List String :=
  search files (Path.join root "profiles/**/*")

def advisoryPaths (files : FileTree) (root : String) : List String :=
  search files (Path.join root "metadata/glsa/*.xml")

def ebuildFiles (files : FileTree) (root : String) : List EbuildFile :=
  (ebuildPaths files root).filterMap ebuildFile?

end EbuildAudit.Repository
