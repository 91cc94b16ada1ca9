import EbuildAudit.Text.Basic

namespace EbuildAudit.Shell

structure NodeInfo where
  kind : String
  field : Option String
  named : Bool
  start : Nat
  stop : Nat
  line : Nat
  column : Nat
  deriving DecidableEq, Repr

inductive Node
  | node (info : NodeInfo) (children : List Node)
  deriving Repr

instance : Inhabited Node :=
  ⟨.node ⟨"", none, false, 0, 0, 0, 0⟩ []⟩

namespace Node

def info : Node → NodeInfo
  | .node i _ => i

def children : Node → List Node
  | .node _ cs => cs

def kind (n : Node) : String :=
  n.info.kind

def namedChildren (n : Node) : List Node :=
  n.children.filter (·.info.named)

def childByField? (n : Node) (field : String) : Option Node :=
  n.children.find? (·.info.field == some field)

mutual

def preorder : Node → List Node
  | .node i cs => .node i cs :: preorderAll cs

def preorderAll : List Node → List Node
  | [] => []
  | n :: ns => n.preorder ++ preorderAll ns

end

theorem preorderAll_append (ms ns : List Node) :
    preorderAll (ms ++ ns) = preorderAll ms ++ preorderAll ns := by
  induction ms with
  | nil => rfl
  | cons m ms ih => rw [List.cons_append, preorderAll, preorderAll, ih, List.append_assoc]

def visit (visited : List Node) : List Node → List Node
  | [] => visited.reverse
  | .node i cs :: stack => visit (.node i cs :: visited) (cs ++ stack)
termination_by stack => (preorderAll stack).length
decreasing_by
  rw [preorderAll_append, preorderAll, preorder]
  exact Nat.lt_succ_self _

def descendants (n : Node) : List Node :=
  visit [] [n]

end Node

structure Tree where
  source : List Char
  root : Node

/-- The part of the script that a node covers; nothing if it does not lie between characters. -/
def Tree.chars (t : Tree) (i : NodeInfo) : List Char :=
  (Text.slice? t.source i.start i.stop).getD []

def Tree.text (t : Tree) (i : NodeInfo) : String :=
  String.ofList (t.chars i)

structure ParseFailure where
  message : String
  line : Nat
  column : Nat
  deriving DecidableEq, Repr

def ParseFailure.display (f : ParseFailure) : String :=
  f.message ++ " (line " ++ toString f.line ++ ", column " ++ toString f.column ++ ")"

end EbuildAudit.Shell
