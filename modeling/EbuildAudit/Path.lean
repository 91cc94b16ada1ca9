import EbuildAudit.Text.Basic

namespace EbuildAudit

inductive Component
  | root
  | current
  | parent
  | name (s : String)
  deriving DecidableEq, Repr

def Component.text : Component → String
  | .root => "/"
  | .current => "."
  | .parent => ".."
  | .name s => s

namespace Path

def isAbsolute (p : String) : Bool :=
  p.toList.head? = some '/'

def join (base rel : String) : String :=
  if isAbsolute rel || base.isEmpty then rel
  else if base.toList.getLast? = some '/' then base ++ rel
  else base ++ "/" ++ rel

def component? : String → Option Component
  | "" => none
  | "." => none
  | ".." => some .parent
  | s => some (.name s)

def components (p : String) : List Component :=
  let parts := Text.splitOn '/' p
  let start :=
    if isAbsolute p then [Component.root]
    else if parts.head? = some "." then [Component.current] else []
  start ++ parts.filterMap component?

def ofComponents (cs : List Component) : String :=
  cs.foldl (fun p c => join p c.text) ""

def trimBack : List Char → List Char
  | '/' :: c :: cs => trimBack (c :: cs)
  | '.' :: '/' :: cs => trimBack ('/' :: cs)
  | cs => cs

def parent? (p : String) : Option String :=
  let back := trimBack p.toList.reverse
  if back.isEmpty || back == ['/'] then none
  else
    let rest := back.dropWhile (· != '/')
    some (String.ofList (trimBack rest).reverse)

def fileName? (p : String) : Option String :=
  match (components p).getLast? with
  | some (.name s) => some s
  | _ => none

def splitExtension (name : String) : String × Option String :=
  let back := name.toList.reverse
  match back.dropWhile (· != '.') with
  | '.' :: stem =>
    if stem.isEmpty then (name, none)
    else (String.ofList stem.reverse, some (String.ofList (back.takeWhile (· != '.')).reverse))
  | _ => (name, none)

def extension? (p : String) : Option String :=
  (fileName? p).bind fun name => (splitExtension name).2

def fileStem? (p : String) : Option String :=
  (fileName? p).map fun name => (splitExtension name).1

def relativeComponents : List Component → List Component → List Component → Option (List Component)
  | [], [], done => some done
  | a :: as, [], done => some (done ++ a :: as)
  | [], _ :: bs, done => relativeComponents [] bs (done ++ [.parent])
  | a :: as, b :: bs, done =>
    if done.isEmpty && a == b then relativeComponents as bs done
    else if b = .current then relativeComponents as bs (done ++ [a])
    else if b = .parent then none
    else some (done ++ .parent :: bs.map (fun _ => .parent) ++ a :: as)

def relative? (p base : String) : Option String :=
  if isAbsolute p != isAbsolute base then if isAbsolute p then some p else none
  else (relativeComponents (components p) (components base) []).map ofComponents

end Path

end EbuildAudit
