import EbuildAudit.Hash.Sha256
import EbuildAudit.Repository.Search
import EbuildAudit.Text.Basic

namespace EbuildAudit.Repository

open Text

def isCommitId (s : String) : Bool :=
  40 ≤ s.utf8ByteSize && s.toList.all isHexDigit

def commitId? (s : String) : Option String :=
  if isCommitId s then some s else none

def packedCommit? (reference list : String) : Option String :=
  (lines list).findSome? fun line => do
    let (commit, name) ← cut? " " line
    if name = reference then commitId? commit else none

def referencedCommit? (files : FileTree) (git reference : String) : Option String :=
  match files.readText (Path.join git reference) with
  | .ok commit => commitId? (trim commit)
  | .error _ => do
    packedCommit? reference (← (files.readText (Path.join git "packed-refs")).toOption)

def headCommit? (files : FileTree) (root : String) : Option String := do
  let git := Path.join root ".git"
  let head := trim (← (files.readText (Path.join git "HEAD")).toOption)
  match stripStart? "ref: " head with
  | some reference => referencedCommit? files git reference
  | none => commitId? head

structure FileMark where
  path : String
  size : Nat
  modified : Nat
  deriving DecidableEq, Repr

namespace FileMark

def order (a b : FileMark) : Ordering :=
  (compare a.path b.path).then <| (compare a.size b.size).then <| compare a.modified b.modified

def notAfter (a b : FileMark) : Bool :=
  a.order b != .gt

def littleEndian : Nat → Nat → List UInt8
  | 0, _ => []
  | width + 1, n => UInt8.ofNat n :: littleEndian width (n / 256)

def bytes (m : FileMark) : List UInt8 :=
  m.path.toUTF8.toList ++ littleEndian 8 m.size ++ littleEndian 16 m.modified

def ofPath? (files : FileTree) (root path : String) : Option FileMark :=
  match files.entry path with
  | .ok (.file bytes modified) =>
    some ⟨(Path.relative? path root).getD path, bytes.size, modified.toNat⟩
  | _ => none

end FileMark

def marks (files : FileTree) (root : String) : List FileMark :=
  (ebuildPaths files root ++ profilePaths files root ++ advisoryPaths files root).filterMap
    (FileMark.ofPath? files root)

def fingerprint (files : FileTree) (root : String) : String :=
  Sha256.hexDigest (((marks files root).mergeSort FileMark.notAfter).flatMap FileMark.bytes)

def identity (files : FileTree) (root : String) : String :=
  (headCommit? files root).getD (fingerprint files root)

end EbuildAudit.Repository
