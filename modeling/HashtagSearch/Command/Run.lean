import HashtagSearch.Command.Failure
import HashtagSearch.Command.Machine
import HashtagSearch.Command.Report
import HashtagSearch.Json.Reader
import HashtagSearch.Matching
import HashtagSearch.Picker

/-!
# Running commands

A command loads the settings if it searches, finds out what its text means, and writes a
report. The report is the last thing that is written, so that a run that fails has written
nothing to its standard output.
-/

namespace HashtagSearch

/-! ## Searching with settings -/

namespace Settings

def catalog (s : Settings) : Except Failure Catalog :=
  match Catalog.check s.columns with
  | none => .ok s.columns
  | some fault => .error (.invalidCatalog fault)

/-- The column meant where a condition names none: the given one, or that of the settings. -/
def searchColumn (s : Settings) (catalog : Catalog) (given : Option Text) :
    Except Failure (Option Column) :=
  match given.or s.defaultColumn with
  | none => .ok none
  | some name =>
    match catalog.resolve? name with
    | some column => .ok (some column)
    | none => .error (.ofColumnName catalog name)

/-- The catalog and what a text means, unless it means nothing. -/
def search (s : Settings) (t : Text) (column : Option Text) : Except Failure (Catalog × Outcome) := do
  let catalog ← s.catalog
  match Outcome.ofText catalog (← s.searchColumn catalog column) t with
  | .unresolved => .error (.ofText catalog t)
  | o => .ok (catalog, o)

def parse (s : Settings) (t : Text) (column : Option Text) : Except Failure Report := do
  return .outcome (← s.search t column).2

def typing (s : Settings) (t : Text) : Except Failure Report := do
  match TypingState.ofText? (← s.catalog) t with
  | some state => .ok (.typing state)
  | none => .error (.notTyping t)

def operators (s : Settings) (t : Text) : Except Failure Report := do
  let catalog ← s.catalog
  match Picker.operatorTerm? t, Picker.operatorColumn? catalog t with
  | none, _ => .error (.noOperatorPosition t)
  | some _, none => .error (.ofText catalog t)
  | some term, some column =>
    .ok (.operators column term (Operator.suggestions column.valueType term))

def offeredColumns (s : Settings) (typed : Text) : Except Failure Report := do
  return .columns ((← s.catalog).suggestions typed)

def pattern (s : Settings) (t value : Text) : Except Failure Report := do
  let (catalog, o) ← s.search t none
  match o.filter? with
  | some f => .ok (.pattern f (f.pattern value))
  | none => .error (.ofText catalog t)

end Settings

/-- The rows that an outcome keeps; all of them when there is nothing to search for. -/
def Outcome.select (catalog : Catalog) (o : Outcome) (rows : List Row) : List Row :=
  match o, o.filter? with
  | .freeText t, _ => rows.filter fun row => Row.holdsText catalog row t
  | _, some f => rows.filter f.accepts
  | _, none => rows

/-- The rows that a text writes in JSON. -/
def readRows (t : Text) : Except Failure (List Row) :=
  match (Json.ofText? t).bind (Json.list? Row.ofJson?) with
  | some rows => .ok rows
  | none => .error .rowsMalformed

/-! ## Runs -/

section

variable {m : Type → Type} [Monad m] [Machine m]

def readText (failure : FileError → Failure)
    (read : ExceptT Failure m (Except FileError ByteArray)) : ExceptT Failure m Text := do
  match (← read).bind decodeText with
  | .ok t => return t
  | .error e => throw (failure e)

/-- The settings at a path; where there is no file all of them are left out. -/
def loadSettings (path : Text) : ExceptT Failure m Settings := do
  if ← Machine.isPresent path then
    match Settings.read (← readText .settingsUnreadable (Machine.read path)) with
    | .ok s => return s
    | .error .malformed => throw .settingsMalformed
    | .error (.newer version) => throw (.settingsNewer version)
  else return {}

/-- Creates the settings to start from. -/
def createSettings (path : Text) (force : Bool) : ExceptT Failure m Unit := do
  if (← Machine.isPresent path) && !force then throw (.settingsPresent path)
  match ← Machine.create path (String.ofList Settings.sample).toUTF8 with
  | .ok () => return
  | .error e => throw (.settingsNotCreated e)

/-- The rows of a file, or of the standard input for a hyphen. -/
def loadRows (path : Text) : ExceptT Failure m (List Row) := do
  let t ← readText .rowsUnreadable
    (if Path.isHyphen path then Machine.readInput else Machine.read path)
  readRows t

def loadedNote (rows : List Row) (path : Text) : Text :=
  "Loaded ".toList ++ Text.ofNat rows.length ++ " rows from ".toList ++ path ++ ['\n']

namespace Invocation

def settingsFile (inv : Invocation) (environment : Environment) (home : Option Text) :
    Except Failure Text :=
  match Settings.path? inv.settingsPath environment home with
  | some path => .ok path
  | none => .error .noHomeFolder

/-- Whether the command line and the environment let output have colours. -/
def allowsColours (inv : Invocation) (environment : Environment) : Bool :=
  !inv.noColour && (environment "NO_COLOR").isNone

def print (inv : Invocation) (colours : Bool) (r : Report) : ExceptT Failure m Unit :=
  Machine.print (r.output inv.json inv.quiet colours)

/-- Reports the rows that a text keeps, at most `limit` of them. -/
def filter (inv : Invocation) (s : Settings) (colours : Bool) (t path : Text)
    (column : Option Text) (limit : Option Nat) : ExceptT Failure m Unit := do
  let (catalog, o) ← s.search t column
  let rows ← loadRows path
  if inv.verbose then Machine.note (loadedNote rows path)
  let kept := o.select catalog rows
  inv.print colours (.rows o.kind rows.length catalog ((limit.map kept.take).getD kept))

def search (inv : Invocation) (s : Settings) (colours : Bool) :
    SearchCommand → ExceptT Failure m Unit
  | .parse t column => do inv.print colours (← s.parse t column)
  | .state t => do inv.print colours (← s.typing t)
  | .operators t => do inv.print colours (← s.operators t)
  | .columns typed => do inv.print colours (← s.offeredColumns typed)
  | .filter t rows column limit => inv.filter s colours t rows column limit
  | .pattern t value => do inv.print colours (← s.pattern t value)

/-- The path of the settings on the machine. -/
def findSettings (inv : Invocation) (environment : Environment) : ExceptT Failure m Text := do
  inv.settingsFile environment (← Machine.findHome environment)

/-- Runs a command. -/
def perform (inv : Invocation) (environment : Environment) : ExceptT Failure m Unit :=
  let colours := inv.allowsColours environment
  match inv.command with
  | .overview => inv.print colours .overview
  | .completions shell => do Machine.print ((← Machine.manual).script shell)
  | .settingsPath => do
    let path ← inv.findSettings environment
    inv.print colours (.settingsPath path (← Machine.isPresent path))
  | .showSettings => do
    let path ← inv.findSettings environment
    let s ← loadSettings path
    inv.print colours (.settings path (← Machine.isPresent path) s)
  | .createSettings force => do
    let path ← inv.findSettings environment
    createSettings path force
    inv.print colours (.settingsCreated path)
  | .search command => do
    let s ← loadSettings (← inv.findSettings environment)
    inv.search s (colours && s.colour != some false) command

def failureText (inv : Invocation) (f : Failure) : Text :=
  (if inv.json then f.toJson.pretty else "Error: ".toList ++ f.message) ++ ['\n']

end Invocation

namespace Stop

def exitCode : Stop → Nat
  | showHelp _ | showVersion _ => 0
  | _ => 2

def print : Stop → m Unit
  | showHelp level => do Machine.print ((← Machine.manual).help level)
  | showVersion level => Machine.print level.version
  | stop => do Machine.note ((← Machine.manual).complaint stop)

end Stop

/-- Runs a command line and gives its exit code. -/
def runArguments (arguments : List Text) (environment : Environment) : m Nat := do
  match Invocation.ofArguments arguments with
  | .error stop =>
    stop.print
    return stop.exitCode
  | .ok inv =>
    match ← (inv.perform environment).run with
    | .ok () => return 0
    | .error f =>
      Machine.note (inv.failureText f)
      return f.kind.exitCode

end

namespace World

/-- How a command ends on a machine, and the machine after it. -/
def perform (w : World) (inv : Invocation) (environment : Environment) :
    Except Failure Unit × World :=
  (inv.perform environment : ExceptT Failure (StateM World) Unit).run.run w

/-- The exit code of a command line on a machine, and the machine after it. -/
def run (w : World) (arguments : List Text) (environment : Environment) : Nat × World :=
  (runArguments arguments environment : StateM World Nat).run w

end World

end HashtagSearch
