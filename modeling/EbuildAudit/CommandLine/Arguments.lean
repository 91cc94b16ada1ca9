import EbuildAudit.Text.Basic

namespace EbuildAudit.CommandLine

inductive UsageError
  | unknownArgument
  | invalidSubcommand
  | invalidValue
  | valueValidation
  | argumentConflict
  | tooManyValues
  | missingRequiredArgument
  | missingSubcommand
  | displayHelp
  | displayVersion
  | displayHelpOnMissing
  deriving DecidableEq, Repr

namespace UsageError

def name : UsageError → String
  | .unknownArgument => "UnknownArgument"
  | .invalidSubcommand => "InvalidSubcommand"
  | .invalidValue => "InvalidValue"
  | .valueValidation => "ValueValidation"
  | .argumentConflict => "ArgumentConflict"
  | .tooManyValues => "TooManyValues"
  | .missingRequiredArgument => "MissingRequiredArgument"
  | .missingSubcommand => "MissingSubcommand"
  | .displayHelp => "DisplayHelp"
  | .displayVersion => "DisplayVersion"
  | .displayHelpOnMissing => "DisplayHelpOnMissingArgumentOrSubcommand"

def exitCode : UsageError → Nat
  | .displayHelp | .displayVersion => 0
  | _ => 2

end UsageError

inductive Action
  | flag
  | single
  | list
  | help
  | version
  deriving DecidableEq, Repr

inductive ValueKind
  | text
  | number
  | choice (names : List String)
  deriving DecidableEq, Repr

structure Param where
  name : String
  short : Option Char
  action : Action
  kind : ValueKind
  commas : Bool
  deriving DecidableEq, Repr

namespace Param

def takesValue (p : Param) : Bool :=
  p.action == .single || p.action == .list

def flag (name : String) (short : Option Char) : Param :=
  ⟨name, short, .flag, .text, false⟩

def single (name : String) : Param :=
  ⟨name, none, .single, .text, false⟩

def list (name : String) : Param :=
  ⟨name, none, .list, .text, true⟩

def numberBound : Nat := 0x10000000000000000

def check (p : Param) (value : String) : Except UsageError PUnit :=
  match p.kind with
  | .text => .ok ()
  | .number =>
    if (Text.bounded? numberBound value.toList).isSome then .ok () else .error .valueValidation
  | .choice names => if names.contains value then .ok () else .error .invalidValue

end Param

inductive Level
  | top
  | version
  | scan
  | show
  | cache
  | clear
  deriving DecidableEq, Repr

namespace Level

def commonOptions : List Param :=
  [.flag "verbose" (some 'v'), ⟨"help", some 'h', .help, .text, false⟩]

def options (l : Level) : List Param :=
  commonOptions ++
    match l with
    | .top => [⟨"version", some 'V', .version, .text, false⟩]
    | .scan =>
      [.single "repo-root", .list "checks", .list "skip-checks",
        ⟨"jobs", some 'j', .single, .number, false⟩, .single "output", .flag "no-cache" none,
        .single "cache-dir", .list "commits"]
    | .clear => [.single "repo-root", .single "cache-dir"]
    | .version | .show | .cache => []

def positional? : Level → Option Param
  | .scan => some ⟨"targets", none, .list, .text, false⟩
  | .show => some ⟨"what", none, .single, .choice ["checks", "scopes", "results"], false⟩
  | _ => none

def commands : Level → List (String × Level)
  | .top => [("version", .version), ("scan", .scan), ("show", .show), ("cache", .cache)]
  | .cache => [("clear", .clear)]
  | _ => []

def hasCommands (l : Level) : Bool :=
  !l.commands.isEmpty

end Level

structure Reading where
  level : Level
  verbose : Bool
  values : List (String × List String)
  pending : Option (Param × List String)
  expecting : Bool
  listing : Bool
  full : Bool
  trailing : Bool
  deriving DecidableEq, Repr

namespace Reading

def start (level : Level) (verbose : Bool) : Reading :=
  ⟨level, verbose, [], none, false, false, false, false⟩

def has (r : Reading) (name : String) : Bool :=
  (r.values.lookup name).isSome

def valuesOf (r : Reading) (name : String) : List String :=
  (r.values.lookup name).getD []

def settle (r : Reading) (p : Param) (values : List String) : Except UsageError Reading := do
  if p.takesValue && values.isEmpty then .error .invalidValue
  match p.action with
  | .help => .error .displayHelp
  | .version => .error .displayVersion
  | .flag =>
    if r.has p.name then .error .argumentConflict
    else return { r with values := (p.name, []) :: r.values }
  | .single =>
    if r.has p.name then .error .argumentConflict
    values.forM p.check
    return { r with values := (p.name, values) :: r.values }
  | .list =>
    let values := if p.commas then values.flatMap (Text.splitOn ',') else values
    values.forM p.check
    return { r with
      values := (p.name, r.valuesOf p.name ++ values) :: r.values.filter (·.1 != p.name) }

def resolve (r : Reading) : Except UsageError Reading :=
  match r.pending with
  | some (p, values) => settle { r with pending := none } p values
  | none => .ok r

def react (r : Reading) (p : Param) (values : List String) : Except UsageError Reading := do
  return { ← (← r.resolve).settle p values with expecting := false, listing := false }

def takeOption (r : Reading) (p : Param) (attached : Option String) :
    Except UsageError Reading := do
  match attached with
  | some value => r.react p [value]
  | none =>
    if p.takesValue then
      return { ← r.resolve with pending := some (p, []), expecting := true, listing := false }
    else r.react p []

def takeLong (r : Reading) (word : String) : Except UsageError Reading :=
  let (name, attached) :=
    match Text.cut? "=" word with
    | some (name, value) => (name, some value)
    | none => (word, none)
  match r.level.options.find? (·.name == name) with
  | none => .error .unknownArgument
  | some p =>
    if attached.isSome && !p.takesValue then .error .tooManyValues else r.takeOption p attached

/-- Letters after one hyphen. What follows the letter of an option with a value is the value. -/
def takeShort (r : Reading) : List Char → Except UsageError Reading
  | [] => .ok r
  | c :: cs =>
    match r.level.options.find? (·.short == some c) with
    | none => .error .unknownArgument
    | some p =>
      if p.takesValue then
        match cs with
        | [] => r.takeOption p none
        | '=' :: value => r.takeOption p (some (String.ofList value))
        | value => r.takeOption p (some (String.ofList value))
      else
        match r.react p [] with
        | .ok r => r.takeShort cs
        | .error e => .error e

def takePositional (r : Reading) (word : String) : Except UsageError Reading := do
  match r.level.positional?, r.full with
  | some p, false =>
    if p.action = .list then
      let r ← if r.listing then pure r else r.resolve
      let values := ((r.pending.map (·.2)).getD []) ++ [word]
      return { r with pending := some (p, values), expecting := false, listing := true }
    else
      return { ← r.resolve with pending := some (p, [word]), expecting := false, full := true }
  | _, _ =>
    if r.level.hasCommands && !(r.trailing && (r.level.commands.any (·.1 == word) || word = "help"))
    then .error .invalidSubcommand
    else .error .unknownArgument

def takeWord (r : Reading) (word : String) : Except UsageError Reading :=
  if r.trailing then r.takePositional word
  else
    match word.toList with
    | ['-', '-'] => .ok { r with trailing := true }
    | '-' :: '-' :: name => r.takeLong (String.ofList name)
    | '-' :: c :: cs => r.takeShort (c :: cs)
    | _ =>
      match r.expecting, r.pending with
      | true, some (p, values) =>
        .ok { r with pending := some (p, values ++ [word]), expecting := false }
      | _, _ => r.takePositional word

def command? (r : Reading) (word : String) : Option Level :=
  if r.trailing || r.expecting || r.listing then none else r.level.commands.lookup word

def isHelp (r : Reading) (word : String) : Bool :=
  !r.trailing && !r.expecting && !r.listing && r.level.hasCommands && word == "help"

def finish (r : Reading) : Except UsageError Reading := do
  let r ← r.resolve
  if r.level.hasCommands then
    .error (if r.values.isEmpty then .displayHelpOnMissing else .missingSubcommand)
  else if r.level = .show && !r.has "what" then .error .missingRequiredArgument
  else return r

end Reading

def helpError : Option Level → List String → UsageError
  | _, [] => .displayHelp
  | none, _ :: _ => .invalidSubcommand
  | some level, word :: words =>
    match level.commands.lookup word with
    | some level => helpError (some level) words
    | none =>
      if level.hasCommands && word == "help" then helpError none words else .invalidSubcommand

def readWords (r : Reading) : List String → Except UsageError Reading
  | [] => r.finish
  | word :: words =>
    if r.isHelp word then .error (helpError (some r.level) words)
    else
      match r.command? word with
      | some level => readWords (.start level (r.verbose || r.has "verbose")) words
      | none =>
        match r.takeWord word with
        | .ok r => readWords r words
        | .error e => .error e

structure ScanArguments where
  targets : List String
  repoRoot : Option String
  checks : List String
  skipChecks : List String
  jobs : Option Nat
  output : Option String
  noCache : Bool
  cacheDir : Option String
  commits : List String
  deriving DecidableEq, Repr

inductive Listing
  | checks
  | scopes
  | results
  deriving DecidableEq, Repr

inductive Command
  | version
  | scan (arguments : ScanArguments)
  | list (what : Listing)
  | clearCache (repoRoot cacheDir : Option String)
  deriving DecidableEq, Repr

structure Arguments where
  verbose : Bool
  command : Command
  deriving DecidableEq, Repr

namespace Reading

def value? (r : Reading) (name : String) : Option String :=
  (r.valuesOf name).head?

def scanArguments (r : Reading) : ScanArguments where
  targets := r.valuesOf "targets"
  repoRoot := r.value? "repo-root"
  checks := r.valuesOf "checks"
  skipChecks := r.valuesOf "skip-checks"
  jobs := (r.value? "jobs").bind fun s => Text.bounded? Param.numberBound s.toList
  output := r.value? "output"
  noCache := r.has "no-cache"
  cacheDir := r.value? "cache-dir"
  commits := r.valuesOf "commits"

def listing? (r : Reading) : Listing :=
  match r.value? "what" with
  | some "scopes" => .scopes
  | some "results" => .results
  | _ => .checks

def command (r : Reading) : Command :=
  match r.level with
  | .scan => .scan r.scanArguments
  | .show => .list r.listing?
  | .clear => .clearCache (r.value? "repo-root") (r.value? "cache-dir")
  | .top | .version | .cache => .version

end Reading

def Arguments.parse (words : List String) : Except UsageError Arguments := do
  let r ← readWords (.start .top false) words
  return ⟨r.verbose || r.has "verbose", r.command⟩

end EbuildAudit.CommandLine
