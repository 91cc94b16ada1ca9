namespace EbuildAudit.Ascending

def insert (name : String) : List String → List String
  | [] => [name]
  | other :: names =>
    if name = other then other :: names
    else if name < other then name :: other :: names
    else other :: insert name names

def ofList (names : List String) : List String :=
  names.foldl (fun done name => insert name done) []

def modify (default : α) (f : α → α) (name : String) : List (String × α) → List (String × α)
  | [] => [(name, f default)]
  | (other, a) :: entries =>
    if name = other then (other, f a) :: entries
    else if name < other then (name, f default) :: (other, a) :: entries
    else (other, a) :: modify default f name entries

def set (name : String) (value : α) (entries : List (String × α)) : List (String × α) :=
  modify value (fun _ => value) name entries

def push (name : String) (value : α) (entries : List (String × List α)) : List (String × List α) :=
  modify [] (· ++ [value]) name entries

end EbuildAudit.Ascending
