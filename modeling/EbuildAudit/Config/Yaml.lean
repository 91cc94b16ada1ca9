import EbuildAudit.Config.Toml

namespace EbuildAudit.Yaml

open Text

inductive Node
  | scalar (text : List Char) (plain : Bool)
  | seq (items : List Node)
  | map (fields : List (Node × Node))
  | anchored (name : List Char) (node : Node)
  | alias (name : List Char)
  deriving Repr

def Node.empty : Node :=
  .scalar [] true

def isSpace (c : Char) : Bool :=
  c == ' ' || c == '\t'

def isFlowMark (c : Char) : Bool :=
  c == ',' || c == '[' || c == ']' || c == '\x7b' || c == '\x7d'

structure Line where
  indent : Nat
  text : List Char
  deriving Repr

def Line.ofChars (cs : List Char) : Line :=
  ⟨(cs.takeWhile (· = ' ')).length, cs.dropWhile (· = ' ')⟩

def Line.chars (l : Line) : List Char :=
  List.replicate l.indent ' ' ++ l.text

def isRemark (cs : List Char) : Bool :=
  match cs.dropWhile isSpace with
  | [] | '#' :: _ => true
  | _ => false

def isLineEnd (cs : List Char) : Bool :=
  cs.isEmpty || (cs.head?.any isSpace && isRemark cs)

def skipRemarks (lines : List Line) : List Line :=
  lines.dropWhile (isRemark ·.text)

def isAlone (flow : Bool) (cs : List Char) : Bool :=
  match cs with
  | [] => true
  | c :: _ => isSpace c || c == '\n' || (flow && isFlowMark c)

def takePlain (flow afterBlank : Bool) : List Char → List Char × List Char
  | [] => ([], [])
  | c :: cs =>
    if c = '\n' || (c = ':' && isAlone flow cs) || (c = '#' && afterBlank) ||
        (flow && isFlowMark c) then ([], c :: cs)
    else
      let (s, rest) := takePlain flow (isSpace c) cs
      (c :: s, rest)

def isIndicator (c : Char) : Bool :=
  isFlowMark c || c == '#' || c == '&' || c == '*' || c == '!' || c == '|' || c == '>' ||
    c == '\'' || c == '"' || c == '%' || c == '@' || c.toNat == 0x60

def readPlain (flow : Bool) (cs : List Char) : Option (List Char × List Char) :=
  match cs with
  | [] => none
  | c :: tail =>
    if isIndicator c || ((c = '-' || c = '?' || c = ':') && isAlone flow tail) then none
    else
      let (s, rest) := takePlain flow false cs
      let s' := dropEnd s
      if s'.isEmpty then none else some (s', s.drop s'.length ++ rest)
where
  dropEnd (s : List Char) : List Char :=
    (s.reverse.dropWhile isSpace).reverse

/-- Blanks around a line end become a blank, and empty lines after it become line ends. -/
def fold : Nat → List Char → List Char
  | 0, cs => cs
  | n + 1, '\n' :: cs =>
    let rest := cs.dropWhile fun c => isSpace c || c == '\n'
    let empty := (cs.takeWhile fun c => isSpace c || c == '\n').count '\n'
    (if empty = 0 then [' '] else List.replicate empty '\n') ++ fold n rest
  | n + 1, c :: cs =>
    if isSpace c && (cs.dropWhile isSpace).head? = some '\n' then fold n (cs.dropWhile isSpace)
    else c :: fold n cs
  | _ + 1, [] => []

def readSingle : List Char → Option (List Char × List Char)
  | [] => none
  | '\'' :: '\'' :: cs => (readSingle cs).map fun (s, rest) => ('\'' :: s, rest)
  | '\'' :: cs => some ([], cs)
  | c :: cs => (readSingle cs).map fun (s, rest) => (c :: s, rest)

def escape? : List Char → Option (Char × List Char)
  | '0' :: cs => some ('\x00', cs)
  | 'a' :: cs => some ('\x07', cs)
  | 'e' :: cs => some ('\x1b', cs)
  | 'v' :: cs => some ('\x0b', cs)
  | ' ' :: cs => some (' ', cs)
  | '/' :: cs => some ('/', cs)
  | 'N' :: cs => some ('\u0085', cs)
  | '_' :: cs => some ('\u00a0', cs)
  | 'L' :: cs => some ('\u2028', cs)
  | 'P' :: cs => some ('\u2029', cs)
  | 'x' :: a :: b :: cs => (Toml.hexCode? [a, b]).map fun e => (e, cs)
  | cs => Toml.escape? cs

def readDouble : Nat → List Char → Option (List Char × List Char)
  | 0, _ => none
  | _ + 1, [] => none
  | _ + 1, '"' :: cs => some ([], cs)
  | n + 1, '\\' :: '\n' :: cs => readDouble n (cs.dropWhile isSpace)
  | n + 1, '\\' :: cs => do
    let (e, cs) ← escape? cs
    let (s, rest) ← readDouble n cs
    some (e :: s, rest)
  | n + 1, '\n' :: cs =>
    let empty := (cs.takeWhile fun c => isSpace c || c == '\n').count '\n'
    let blanks := if empty = 0 then [' '] else List.replicate empty '\n'
    (readDouble n (cs.dropWhile fun c => isSpace c || c == '\n')).map fun (s, rest) =>
      (blanks ++ s, rest)
  | n + 1, c :: cs =>
    if isSpace c && (cs.dropWhile isSpace).head? = some '\n' then
      readDouble n (cs.dropWhile isSpace)
    else (readDouble n cs).map fun (s, rest) => (c :: s, rest)

def readQuoted : List Char → Option (List Char × List Char)
  | '\'' :: cs => (readSingle cs).map fun (s, rest) => (fold s.length s, rest)
  | '"' :: cs => readDouble (cs.length + 1) cs
  | _ => none

def isNameChar (c : Char) : Bool :=
  c.isAlphanum || c == '_' || c == '-'

def readName (cs : List Char) : Option (List Char × List Char) :=
  let name := cs.takeWhile isNameChar
  let rest := cs.dropWhile isNameChar
  let isOver := match rest with
    | [] => true
    | c :: _ => isSpace c || c == '\n' || "?:,]\x7d%@".toList.contains c || c.toNat == 0x60
  if name.isEmpty || !isOver then none else some (name, rest)

structure Properties where
  anchor : Option (List Char)
  tagged : Bool

def Properties.none : Properties :=
  ⟨.none, false⟩

def Properties.put (p : Properties) (n : Node) : Node :=
  match p.anchor with
  | some name => .anchored name n
  | .none => n

def isTagEnd (flow : Bool) (c : Char) : Bool :=
  isSpace c || c == '\n' || (flow && c == ',')

def readProperties (flow : Bool) : Nat → Properties → List Char →
    Option (Properties × List Char)
  | 0, p, cs => some (p, cs)
  | n + 1, p, cs =>
    match cs with
    | '&' :: cs => do
      if p.anchor.isSome then none
      let (name, rest) ← readName cs
      readProperties flow n { p with anchor := some name } (rest.dropWhile isSpace)
    | '!' :: cs =>
      if p.tagged then none
      else
        readProperties flow n { p with tagged := true }
          ((cs.dropWhile (!isTagEnd flow ·)).dropWhile isSpace)
    | cs => some (p, cs)

def takeProperties (flow : Bool) (cs : List Char) : Option (Properties × List Char) :=
  readProperties flow 3 .none cs

def readScalar (flow : Bool) (cs : List Char) : Option (Node × List Char) :=
  match cs with
  | '*' :: cs => (readName cs).map fun (name, rest) => (.alias name, rest)
  | '\'' :: _ | '"' :: _ => (readQuoted cs).map fun (s, rest) => (.scalar s false, rest)
  | _ => (readPlain flow cs).map fun (s, rest) => (.scalar s true, rest)

def skipFlow : Nat → List Char → List Char
  | 0, cs => cs
  | n + 1, cs =>
    match cs.dropWhile fun c => isSpace c || c == '\n' with
    | '#' :: cs => skipFlow n (cs.dropWhile (· != '\n'))
    | cs => cs

mutual

def readFlow : Nat → List Char → Option (Node × List Char)
  | 0, _ => none
  | n + 1, cs => do
    let (p, cs) ← takeProperties true cs
    let (node, rest) ←
      match if p.anchor.isSome || p.tagged then skipFlow cs.length cs else cs with
      | '[' :: cs => (readFlowItems n cs).map fun (items, rest) => (Node.seq items, rest)
      | '\x7b' :: cs => (readFlowFields n cs).map fun (fields, rest) => (Node.map fields, rest)
      | c :: cs =>
        if (p.anchor.isSome || p.tagged) && (c == ',' || c == ']' || c == '\x7d') then
          some (Node.empty, c :: cs)
        else readScalar true (c :: cs)
      | [] => none
    some (p.put node, rest)

def readFlowItems : Nat → List Char → Option (List Node × List Char)
  | 0, _ => none
  | n + 1, cs =>
    match skipFlow cs.length cs with
    | ']' :: rest => some ([], rest)
    | cs => do
      let (item, rest) ← readFlow n cs
      match skipFlow rest.length rest with
      | ',' :: rest =>
        let (items, rest) ← readFlowItems n rest
        some (item :: items, rest)
      | ']' :: rest => some ([item], rest)
      | _ => none

def readFlowFields : Nat → List Char → Option (List (Node × Node) × List Char)
  | 0, _ => none
  | n + 1, cs =>
    match skipFlow cs.length cs with
    | '\x7d' :: rest => some ([], rest)
    | cs => do
      let (key, rest) ← readFlow n cs
      let (value, rest) ←
        match skipFlow rest.length rest with
        | ':' :: rest =>
          match skipFlow rest.length rest with
          | ',' :: rest => some (Node.empty, ',' :: rest)
          | '\x7d' :: rest => some (Node.empty, '\x7d' :: rest)
          | rest => readFlow n rest
        | rest => some (Node.empty, rest)
      match skipFlow rest.length rest with
      | ',' :: rest =>
        let (fields, rest) ← readFlowFields n rest
        some ((key, value) :: fields, rest)
      | '\x7d' :: rest => some ([(key, value)], rest)
      | _ => none

end

def joined (cs : List Char) (lines : List Line) : List Char :=
  cs ++ lines.flatMap fun l => '\n' :: l.chars

def separated (cs : List Char) : List Char × List Line :=
  (cs.takeWhile (· != '\n'),
    match cs.dropWhile (· != '\n') with
    | _ :: rest => (rest.splitOn '\n').map Line.ofChars
    | [] => [])

def plainRest (least : Nat) : List Line → Option (List Char × List Line)
  | [] => some ([], [])
  | l :: lines =>
    if l.text.isEmpty || l.indent < least || isRemark l.text then some ([], l :: lines)
    else
      let (s, rest) := takePlain false true l.text
      if rest.isEmpty then (plainRest least lines).map fun (t, rest) =>
        (' ' :: (s.reverse.dropWhile isSpace).reverse ++ t, rest)
      else if isLineEnd (' ' :: rest) then
        some (' ' :: (s.reverse.dropWhile isSpace).reverse, lines)
      else none

def readInline (least : Nat) (cs : List Char) (lines : List Line) : Option (Node × List Line) :=
  match cs.head? with
  | some '[' | some '\x7b' | some '\'' | some '"' | some '*' => do
    let text := joined cs lines
    let (node, rest) ← readFlow (2 * text.length + 2) text
    let (rest, lines) := separated rest
    if isLineEnd rest then some (node, lines) else none
  | _ => do
    let (s, rest) ← readPlain false cs
    if rest.all isSpace then
      let (t, lines) ← plainRest least lines
      some (.scalar (s ++ t) true, lines)
    else if isLineEnd rest then some (.scalar s true, lines)
    else none

def isBlockLine (least : Nat) (l : Line) : Bool :=
  least ≤ l.indent || l.text.isEmpty

def chomp (mark : List Char) (text : List Char) : List Char :=
  let body := (text.reverse.dropWhile (· = '\n')).reverse
  if mark.contains '+' then text
  else if mark.contains '-' || body.isEmpty then body
  else body ++ ['\n']

def readBlock (least : Nat) (folded : Bool) (mark : List Char) (lines : List Line) :
    Node × List Line :=
  let block := lines.takeWhile (isBlockLine least)
  let depth := ((block.filter (!·.text.isEmpty)).map (·.indent)).headD 0
  let text := block.flatMap fun l => l.chars.drop depth ++ ['\n']
  let text := chomp mark text
  let body := (text.reverse.dropWhile (· = '\n')).reverse
  (.scalar (if folded then fold text.length body ++ text.drop body.length else text) false,
    lines.dropWhile (isBlockLine least))

def readKey? (cs : List Char) : Option (Node × List Char) := do
  let (p, cs) ← takeProperties false cs
  let (key, rest) ← readScalar false cs
  match rest.dropWhile isSpace with
  | ':' :: rest => if isAlone false rest then some (p.put key, rest) else none
  | _ => none

def item? : List Char → Option (List Char)
  | '-' :: cs => if isAlone false cs then some cs else none
  | _ => none

def itemsFollow (indent : Nat) (lines : List Line) : Bool :=
  match skipRemarks lines with
  | l :: _ => l.indent == indent && (item? l.text).isSome
  | [] => false

def afterSigns (cs : List Char) : List Char :=
  cs.dropWhile fun c => c == '+' || c == '-' || c.isDigit

mutual

def readNode : Nat → Nat → List Line → Option (Node × List Line)
  | 0, _, _ => none
  | n + 1, least, lines =>
    match skipRemarks lines with
    | [] => some (.empty, [])
    | l :: lines =>
      if l.indent < least then some (.empty, l :: lines)
      else if (item? l.text).isSome then
        (readItems n l.indent (l :: lines)).map fun (items, rest) => (.seq items, rest)
      else if (readKey? l.text).isSome then
        (readFields n l.indent (l :: lines)).map fun (fields, rest) => (.map fields, rest)
      else readValue n false least l.text lines

/--
A value that stands after a key or hyphen, or on the lines below that are far enough in. The items
of a key may be as far in as the key itself.
-/
def readValue : Nat → Bool → Nat → List Char → List Line → Option (Node × List Line)
  | 0, _, _, _, _ => none
  | n + 1, keyed, least, cs, lines => do
    let (p, cs) ← takeProperties false (cs.dropWhile isSpace)
    let (node, rest) ←
      match cs with
      | '|' :: mark =>
        if isLineEnd (afterSigns mark) then some (readBlock least false mark lines) else none
      | '>' :: mark =>
        if isLineEnd (afterSigns mark) then some (readBlock least true mark lines) else none
      | cs =>
        if !isRemark cs then readInline least cs lines
        else if keyed && itemsFollow (least - 1) lines then
          (readItems n (least - 1) (skipRemarks lines)).map fun (items, rest) =>
            (Node.seq items, rest)
        else readNode n least lines
    some (p.put node, rest)

def readItems : Nat → Nat → List Line → Option (List Node × List Line)
  | 0, _, _ => none
  | n + 1, indent, lines =>
    match skipRemarks lines with
    | [] => some ([], [])
    | l :: lines =>
      if l.indent < indent then some ([], l :: lines)
      else
        match (if l.indent = indent then item? l.text else none) with
        | none => if l.indent = indent then some ([], l :: lines) else none
        | some cs => do
          let inner := cs.dropWhile (· = ' ')
          let (node, rest) ←
            if (item? inner).isSome || (readKey? inner).isSome then
              readNode n (indent + 1) (⟨indent + 1 + (cs.length - inner.length), inner⟩ :: lines)
            else readValue n false (indent + 1) cs lines
          let (nodes, rest) ← readItems n indent rest
          some (node :: nodes, rest)

def readFields : Nat → Nat → List Line → Option (List (Node × Node) × List Line)
  | 0, _, _ => none
  | n + 1, indent, lines =>
    match skipRemarks lines with
    | [] => some ([], [])
    | l :: lines =>
      if l.indent < indent then some ([], l :: lines)
      else if indent < l.indent then none
      else do
        let (key, cs) ← readKey? l.text
        let (value, rest) ← readValue n true (indent + 1) cs lines
        let (fields, rest) ← readFields n indent rest
        some ((key, value) :: fields, rest)

end

abbrev Anchors :=
  List (List Char × Node)

mutual

def Node.resolve (names : Anchors) : Node → Option (Node × Anchors)
  | .scalar s plain => some (.scalar s plain, names)
  | .seq items => (resolveItems names items).map fun (items, names) => (.seq items, names)
  | .map fields => (resolveFields names fields).map fun (fields, names) => (.map fields, names)
  | .anchored name n => (n.resolve names).map fun (n, names) => (n, (name, n) :: names)
  | .alias name => (names.lookup name).map fun n => (n, names)

def resolveItems (names : Anchors) : List Node → Option (List Node × Anchors)
  | [] => some ([], names)
  | n :: ns => do
    let (n, names) ← n.resolve names
    let (ns, names) ← resolveItems names ns
    some (n :: ns, names)

def resolveFields (names : Anchors) :
    List (Node × Node) → Option (List (Node × Node) × Anchors)
  | [] => some ([], names)
  | (key, value) :: fields => do
    let (key, names) ← key.resolve names
    let (value, names) ← value.resolve names
    let (fields, names) ← resolveFields names fields
    some ((key, value) :: fields, names)

end

def dropVersion (lines : List Line) : Option (List Line) :=
  match lines with
  | l :: rest =>
    if l.indent = 0 && l.text.head? = some '%' then
      let isVersion (version : String) : Bool :=
        match ("%YAML " ++ version).toList.isPrefixOf? l.text with
        | some cs => isLineEnd cs
        | none => false
      let isStart := match skipRemarks rest with
        | ⟨0, '-' :: '-' :: '-' :: cs⟩ :: _ => isAlone false cs
        | _ => false
      if (isVersion "1.1" || isVersion "1.2") && isStart then some rest else none
    else some lines
  | [] => some []

def documentLines (lines : List Line) : Option (List Line) := do
  let lines := skipRemarks (← dropVersion (skipRemarks lines))
  let lines :=
    match lines with
    | ⟨0, '-' :: '-' :: '-' :: cs⟩ :: rest =>
      if isAlone false cs then Line.mk 3 cs :: rest else lines
    | _ => lines
  let isMark (mark : String) (l : Line) : Bool :=
    match mark.toList.isPrefixOf? l.chars with
    | some rest => isAlone false rest
    | none => false
  let body := lines.takeWhile fun l => !isMark "---" l && !isMark "..." l
  let rest := lines.drop body.length
  if (rest.drop 1).all (isRemark ·.text) && !(rest.head?.any (isMark "---")) &&
      !(body.any fun l => l.text.head? = some '\t' && !isRemark l.text) then some body
  else none

def parse? (s : String) : Option Node := do
  let chars := s.toList.filter (· != '\r')
  let lines ← documentLines ((chars.splitOn '\n').map Line.ofChars)
  let (node, rest) ← readNode (3 * s.length + 3) 0 lines
  if (skipRemarks rest).isEmpty then (node.resolve []).map (·.1) else none

end EbuildAudit.Yaml
