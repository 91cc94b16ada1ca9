import EbuildAudit.Ascending
import EbuildAudit.Path

namespace EbuildAudit

inductive FileError
  | notFound
  | notDirectory
  | isDirectory
  | alreadyExists
  | notText
  deriving DecidableEq, Repr

def FileError.message : FileError → String
  | .notFound => "No such file or directory (os error 2)"
  | .notDirectory => "Not a directory (os error 20)"
  | .isDirectory => "Is a directory (os error 21)"
  | .alreadyExists => "File exists (os error 17)"
  | .notText => "stream did not contain valid UTF-8"

inductive Entry
  | file (bytes : ByteArray) (modified : Int)
  | dir (entries : List (String × Entry))

namespace Entry

def isDir : Entry → Bool
  | .dir _ => true
  | .file .. => false

/-- Follows names downwards and dots upwards; `up` are the directories above, the nearest first. -/
def walk : Entry → List Entry → List String → Except FileError Entry
  | e, _, [] => .ok e
  | .file .., _, _ :: _ => .error .notDirectory
  | .dir entries, up, name :: names =>
    if name = "." then walk (.dir entries) up names
    else if name = ".." then
      match up with
      | [] => walk (.dir entries) [] names
      | above :: up => walk above up names
    else
      match entries.lookup name with
      | none => .error .notFound
      | some e => walk e (.dir entries :: up) names

def setEntry (name : String) (entry : Option Entry) (entries : List (String × Entry)) :
    List (String × Entry) :=
  match entry with
  | none => entries.filter (·.1 != name)
  | some e => Ascending.set name e entries

def modify (f : Option Entry → Option Entry) : List String → Option Entry → Option Entry
  | [], e => f e
  | name :: names, some (.dir entries) =>
    some (.dir (setEntry name (modify f names (entries.lookup name)) entries))
  | _ :: _, e => e

end Entry

structure FileTree where
  root : Entry
  cwd : List String

namespace FileTree

def empty : FileTree :=
  ⟨.dir [], []⟩

def pathNames (p : String) : List String :=
  (Text.splitOn '/' p).filter (!·.isEmpty) ++
    if p.toList.getLast? = some '/' then ["."] else []

def namesFromRoot (t : FileTree) (p : String) : List String :=
  if Path.isAbsolute p then pathNames p else t.cwd ++ pathNames p

def entry (t : FileTree) (p : String) : Except FileError Entry :=
  if p.isEmpty then .error .notFound else t.root.walk [] (t.namesFromRoot p)

def exists? (t : FileTree) (p : String) : Bool :=
  (t.entry p).toOption.isSome

def isDir (t : FileTree) (p : String) : Bool :=
  match t.entry p with
  | .ok (.dir _) => true
  | _ => false

def isFile (t : FileTree) (p : String) : Bool :=
  match t.entry p with
  | .ok (.file ..) => true
  | _ => false

def readBytes (t : FileTree) (p : String) : Except FileError ByteArray :=
  match t.entry p with
  | .ok (.file bytes _) => .ok bytes
  | .ok (.dir _) => .error .isDirectory
  | .error e => .error e

def readText (t : FileTree) (p : String) : Except FileError String := do
  match String.fromUTF8? (← t.readBytes p) with
  | some s => .ok s
  | none => .error .notText

def list (t : FileTree) (p : String) : Except FileError (List (String × Entry)) :=
  match t.entry p with
  | .ok (.dir entries) => .ok entries
  | .ok (.file ..) => .error .notDirectory
  | .error e => .error e

/-- The names from the root without dots: each pair of dots takes a name away. -/
def resolved (names : List String) : List String :=
  (names.foldl (fun done name =>
    if name = "." then done else if name = ".." then done.tail else name :: done) []).reverse

def place (t : FileTree) (p : String) : List String :=
  resolved (t.namesFromRoot p)

def setAt (t : FileTree) (names : List String) (entry : Option Entry) : FileTree :=
  { t with root := (Entry.modify (fun _ => entry) names (some t.root)).getD t.root }

def write (t : FileTree) (p : String) (bytes : ByteArray) (modified : Int) :
    Except FileError FileTree :=
  match t.entry p with
  | .ok (.dir _) => .error .isDirectory
  | .ok (.file ..) => .ok (t.setAt (t.place p) (some (.file bytes modified)))
  | .error .notFound =>
    match t.root.walk [] (t.namesFromRoot p).dropLast with
    | .ok (.dir _) => .ok (t.setAt (t.place p) (some (.file bytes modified)))
    | .ok (.file ..) => .error .notDirectory
    | .error e => .error e
  | .error e => .error e

def removeFile (t : FileTree) (p : String) : Except FileError FileTree :=
  match t.entry p with
  | .ok (.dir _) => .error .isDirectory
  | .ok (.file ..) => .ok (t.setAt (t.place p) none)
  | .error e => .error e

def renameFile (t : FileTree) (source target : String) : Except FileError FileTree :=
  match t.entry source, t.entry target with
  | .ok (.file ..), .ok (.dir _) => .error .isDirectory
  | .ok (.file bytes modified), _ => do
    (← t.write target bytes modified).removeFile source
  | .ok (.dir _), _ => .error .isDirectory
  | .error e, _ => .error e

def makeDirs : List String → List String → FileTree → Except FileError FileTree
  | _, [], t => .ok t
  | passed, name :: names, t =>
    let here := passed ++ [name]
    match t.root.walk [] here with
    | .ok (.dir _) => makeDirs here names t
    | .ok (.file ..) => .error (if names.isEmpty then .alreadyExists else .notDirectory)
    | .error _ => makeDirs here names (t.setAt here (some (.dir [])))

def createDirs (t : FileTree) (p : String) : Except FileError FileTree :=
  if p.isEmpty then .ok t else makeDirs [] (t.place p) t

def removeAll (t : FileTree) (p : String) : FileTree :=
  t.setAt (t.place p) none

end FileTree

end EbuildAudit
