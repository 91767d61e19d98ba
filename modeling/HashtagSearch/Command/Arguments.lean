import HashtagSearch.Command.Invocation

/-!
# Reading a command line

A command line is read from the left. It starts at the top level; the name of a
subcommand goes on to its level for good. At each level it may give the options that all
levels share, those of the level and one positional argument. After two hyphens
everything is positional. The first thing that is wrong stops the reading, where

* an option that waits for its value, or has it as the next argument, is only examined
  when something else of its level follows or the level ends, and
* an inner level is read and checked before the level around it is.
-/

namespace HashtagSearch

inductive Level
  | top
  | parse
  | state
  | operators
  | columns
  | filter
  | pattern
  | config
  | configShow
  | configPath
  | configInit
  | completions
  | help
  deriving DecidableEq, Repr

/-- Why a command line is not run. -/
inductive Stop
  | showHelp (level : Level)
  | showVersion (level : Level)
  | unknownCommand
  | unknownArgument
  | missingArgument
  | invalidValue
  | notANumber
  | unexpectedValue
  | conflict
  deriving DecidableEq, Repr

inductive Parameter
  | verbose
  | quiet
  | json
  | noColour
  | config
  | help
  | version
  | column
  | rows
  | limit
  | value
  | force
  | text
  | typed
  | shell
  deriving DecidableEq, Repr

namespace Parameter

def long? : Parameter → Option String
  | verbose => some "verbose"
  | quiet => some "quiet"
  | json => some "json"
  | noColour => some "no-color"
  | config => some "config"
  | help => some "help"
  | version => some "version"
  | column => some "column"
  | rows => some "rows"
  | limit => some "limit"
  | value => some "value"
  | force => some "force"
  | text | typed | shell => none

def short? : Parameter → Option Char
  | verbose => some 'v'
  | quiet => some 'q'
  | help => some 'h'
  | version => some 'V'
  | column => some 'c'
  | rows => some 'r'
  | _ => none

def takesValue : Parameter → Bool
  | config | column | rows | limit | value | text | typed | shell => true
  | verbose | quiet | json | noColour | help | version | force => false

def shared : List Parameter := [verbose, quiet, json, noColour, config, help, version]

/-- A natural number of 64 bits in decimal, after a plus sign or not. -/
def readLimit? (t : Text) : Option Nat :=
  let digits := if t.head? = some '+' then t.drop 1 else t
  let n := digits.foldl (fun n c => 10 * n + (c.toNat - '0'.toNat)) 0
  if digits.isEmpty || !digits.all Char.isDigit || Nat.pow 2 64 ≤ n then none else some n

def fault? (p : Parameter) (t : Text) : Option Stop :=
  match p with
  | config | rows => if t.isEmpty then some .invalidValue else none
  | limit => if (readLimit? t).isNone then some .notANumber else none
  | shell => if (Shell.ofName? t).isNone then some .invalidValue else none
  | _ => none

end Parameter

namespace Level

def ownOptions : Level → List Parameter
  | parse => [.column]
  | filter => [.rows, .column, .limit]
  | pattern => [.value]
  | configInit => [.force]
  | _ => []

def options (level : Level) : List Parameter := Parameter.shared ++ level.ownOptions

def positional? : Level → Option Parameter
  | parse | state | operators | filter | pattern => some .text
  | columns => some .typed
  | completions => some .shell
  | _ => none

/-- The subcommands of the level, each with its names. -/
def children : Level → List (List String × Level)
  | top =>
    [(["parse", "p"], parse), (["state"], state), (["operators"], operators),
      (["columns"], columns), (["filter", "f"], filter), (["pattern"], pattern),
      (["config"], config), (["completions"], completions), (["help"], help)]
  | config => [(["show"], configShow), (["path"], configPath), (["init"], configInit), (["help"], help)]
  | _ => []

def child? (level : Level) (name : Text) : Option Level :=
  (level.children.find? fun (names, _) => names.any (·.toList == name)).map (·.2)

def ofLong? (level : Level) (name : Text) : Option Parameter :=
  level.options.find? fun p => p.long?.any (·.toList == name)

def ofShort? (level : Level) (letter : Char) : Option Parameter :=
  level.options.find? fun p => p.short? == some letter

/-- The name of the level in the text of its version. -/
def fullName : Level → String
  | top => "hq"
  | parse => "hq-parse"
  | state => "hq-state"
  | operators => "hq-operators"
  | columns => "hq-columns"
  | filter => "hq-filter"
  | pattern => "hq-pattern"
  | config => "hq-config"
  | configShow => "hq-config-show"
  | configPath => "hq-config-path"
  | configInit => "hq-config-init"
  | completions => "hq-completions"
  | help => "hq-help"

end Level

/-- Parameters with their values; those of inner levels stand in front. An option without
values has the empty one. -/
abbrev Given := List (Parameter × Text)

namespace Given

def value? (given : Given) (p : Parameter) : Option Text :=
  (given.find? (·.1 == p)).map (·.2)

def has (given : Given) (p : Parameter) : Bool := (given.value? p).isSome

def need (given : Given) (p : Parameter) : Except Stop Text :=
  match given.value? p with
  | some t => .ok t
  | none => .error .missingArgument

/-- One more parameter, which may not be given twice. -/
def add (given : Given) (p : Parameter) (t : Text) : Except Stop Given :=
  if given.has p then .error .conflict
  else
    match p.fault? t with
    | some stop => .error stop
    | none => .ok ((p, t) :: given)

end Given

def Level.command (level : Level) (given : Given) : Except Stop Command :=
  match level with
  | .top => .ok .overview
  | .parse => do return .search (.parse (← given.need .text) (given.value? .column))
  | .state => do return .search (.state (← given.need .text))
  | .operators => do return .search (.operators (← given.need .text))
  | .columns => .ok (.search (.columns ((given.value? .typed).getD [])))
  | .filter => do
    let limit := (given.value? .limit).bind Parameter.readLimit?
    let text ← given.need .text
    return .search (.filter text (← given.need .rows) (given.value? .column) limit)
  | .pattern => do return .search (.pattern (← given.need .text) (← given.need .value))
  | .config | .configShow => .ok .showSettings
  | .configPath => .ok .settingsPath
  | .configInit => .ok (.createSettings (given.has .force))
  | .completions => do
    match Shell.ofName? (← given.need .shell) with
    | some shell => .ok (.completions shell)
    | none => .error .invalidValue
  | .help => .error (.showHelp .help)

namespace Arguments

/-- A parameter that is still to be examined, with its value unless it waits for that. -/
structure Pending where
  parameter : Parameter
  value : Option Text

structure Reading where
  given : Given := []
  pending : Option Pending := none
  isPositionalGiven : Bool := false

namespace Reading

/-- Whether the next argument is the value of an option. -/
def awaited? (r : Reading) : Option Parameter :=
  match r.pending with
  | some ⟨p, none⟩ => some p
  | _ => none

def settle (r : Reading) : Except Stop Reading :=
  match r.pending with
  | none => .ok r
  | some ⟨_, none⟩ => .error .invalidValue
  | some ⟨p, some t⟩ => do return { r with given := ← r.given.add p t, pending := none }

def option (r : Reading) (p : Parameter) (t : Text) (level : Level) : Except Stop Reading := do
  let r ← r.settle
  match p with
  | .help => .error (.showHelp level)
  | .version => .error (.showVersion level)
  | _ => return { r with given := ← r.given.add p t }

/-- An option with the value that is attached to it, or with one to come. -/
def optionWithValue (r : Reading) (p : Parameter) (attached : Option Text) (level : Level) :
    Except Stop Reading :=
  match attached with
  | some t => r.option p t level
  | none => do return { ← r.settle with pending := some ⟨p, none⟩ }

def long (r : Reading) (level : Level) (t : Text) : Except Stop Reading :=
  let (name, attached) :=
    match Text.splitAtChar? '=' t with
    | some (name, value) => (name, some value)
    | none => (t, none)
  match level.ofLong? name with
  | none => .error .unknownArgument
  | some p =>
    if p.takesValue then r.optionWithValue p attached level
    else if attached.isSome then .error .unexpectedValue
    else r.option p [] level

/-- The options whose letters follow one hyphen. An option with a value takes what is left,
with or without an equals sign in front. -/
def letters (r : Reading) (level : Level) : Text → Except Stop Reading
  | [] => .ok r
  | c :: t =>
    match level.ofShort? c with
    | none => .error .unknownArgument
    | some p =>
      if p.takesValue then
        r.optionWithValue p
          (match t with
          | [] => none
          | '=' :: value => some value
          | value => some value)
          level
      else do (← r.option p [] level).letters level t

def positional (r : Reading) (level : Level) (t : Text) (afterHyphens : Bool) :
    Except Stop Reading :=
  match level.positional?, r.isPositionalGiven with
  | some p, false => do
    return { ← r.settle with pending := some ⟨p, some t⟩, isPositionalGiven := true }
  | _, _ =>
    .error
      (if level.children.isEmpty || (afterHyphens && (level.child? t).isSome) then .unknownArgument
      else .unknownCommand)

/-- The parameters of the level when nothing of it is left. -/
def finish (r : Reading) : Except Stop Given := do
  let r ← r.settle
  if r.given.has .verbose && r.given.has .quiet then .error .conflict else .ok r.given

end Reading

/-- The level that the help is asked for. -/
def readHelp (level : Level) : List Text → Stop
  | [] => .showHelp level
  | name :: rest =>
    match level.child? name with
    | some child => readHelp child rest
    | none => .unknownCommand

def readPositionals (level : Level) (r : Reading) : List Text → Except Stop Reading
  | [] => .ok r
  | t :: rest => do readPositionals level (← r.positional level t true) rest

/-- One argument that names no subcommand and comes before two hyphens. -/
def readOne (level : Level) (r : Reading) (t : Text) : Except Stop Reading :=
  match t, r.awaited? with
  | '-' :: '-' :: body, _ => r.long level body
  | '-' :: c :: body, _ => r.letters level (c :: body)
  | value, some p => .ok { r with pending := some ⟨p, some value⟩ }
  | value, none => r.positional level value false

/-- The subcommand that an argument names, unless it is the value of an option. -/
def subcommand? (level : Level) (r : Reading) (t : Text) : Option Level :=
  match r.awaited? with
  | some _ => none
  | none => level.child? t

/-- Reads the arguments from a level on: the command and all that is given. -/
def readFrom (level : Level) (r : Reading) : List Text → Except Stop (Command × Given)
  | [] => do
    let given ← r.finish
    return (← level.command given, given)
  | t :: rest =>
    match subcommand? level r t with
    | some .help => .error (readHelp level rest)
    | some child => do
      let (command, inner) ← readFrom child {} rest
      return (command, inner ++ (← r.finish))
    | none =>
      if t = ['-', '-'] then do
        let given ← (← readPositionals level r rest).finish
        return (← level.command given, given)
      else do readFrom level (← readOne level r t) rest

end Arguments

/-- What the arguments of a command line ask for. -/
def Invocation.ofArguments (arguments : List Text) : Except Stop Invocation := do
  let (command, given) ← Arguments.readFrom .top {} arguments
  return {
    command
    verbose := given.has .verbose
    quiet := given.has .quiet
    json := given.has .json
    noColour := given.has .noColour
    settingsPath := given.value? .config }

end HashtagSearch
