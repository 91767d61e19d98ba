import HashtagSearch.Files
import HashtagSearch.Settings
import HashtagSearch.Spelling

/-!
# Why a command fails

A failure is one of five kinds, by which a caller can tell it from the exit code, and
has a message for people.
-/

namespace HashtagSearch

inductive Failure
  | noHomeFolder
  | settingsUnreadable (e : FileError)
  | settingsMalformed
  | settingsNewer (version : Nat)
  | settingsPresent (path : Text)
  | settingsNotCreated (e : CreationError)
  | invalidCatalog (fault : Catalog.Fault)
  | rowsUnreadable (e : FileError)
  | rowsMalformed
  | unknownColumn (name : Text) (similar : Option Text)
  | unresolved (text : Text)
  | notTyping (text : Text)
  | noOperatorPosition (text : Text)
  deriving DecidableEq, Repr

namespace Failure

inductive Kind
  | settings
  | catalog
  | file
  | json
  | noMatch
  deriving DecidableEq, Repr

def Kind.code : Kind → String
  | settings => "CONFIG_ERROR"
  | catalog => "CATALOG_ERROR"
  | file => "IO_ERROR"
  | json => "JSON_ERROR"
  | noMatch => "NO_MATCH"

def Kind.exitCode : Kind → Nat
  | noMatch | json => 1
  | file => 3
  | settings | catalog => 5

def Kind.opening : Kind → String
  | settings => "configuration error: "
  | catalog => "catalog error: "
  | file => "I/O error: "
  | json => "serialization error: "
  | noMatch => ""

def kind : Failure → Kind
  | noHomeFolder | settingsUnreadable _ | settingsMalformed | settingsNewer _
  | settingsPresent _ | settingsNotCreated _ => .settings
  | invalidCatalog _ => .catalog
  | rowsUnreadable _ => .file
  | rowsMalformed => .json
  | unknownColumn .. | unresolved _ | notTyping _ | noOperatorPosition _ => .noMatch

/-- The message without its opening. -/
def detail : Failure → Text
  | noHomeFolder => "Could not determine config directory".toList
  | settingsUnreadable e => "Failed to read config: ".toList ++ e.message
  | settingsMalformed => "Failed to parse config: this is no settings document".toList
  | settingsNewer v =>
    "Config version ".toList ++ Text.ofNat v ++ " is newer than supported version ".toList ++
      Text.ofNat Settings.version
  | settingsPresent path =>
    "Config already exists at ".toList ++ path ++ ". Use --force to overwrite.".toList
  | settingsNotCreated (.folder e) => "Failed to create config directory: ".toList ++ e.message
  | settingsNotCreated (.file e) => "Failed to write config: ".toList ++ e.message
  | invalidCatalog fault => fault.message
  | rowsUnreadable e => e.message
  | rowsMalformed => "this is no array of objects".toList
  | unknownColumn name similar =>
    "Column '".toList ++ name ++ "' not found.".toList ++
      (similar.map fun s => " Did you mean '".toList ++ s ++ "'?".toList).getD []
  | unresolved t => "Could not interpret search text '".toList ++ Text.trim t ++ "'.".toList
  | notTyping t =>
    ['\''] ++ Text.trim t ++ "' is not an unconfirmed multi-condition search.".toList
  | noOperatorPosition t =>
    ['\''] ++ Text.trim t ++ "' does not end at an operator position.".toList

def message (f : Failure) : Text := f.kind.opening.toList ++ f.detail

def toJson (f : Failure) : Json :=
  .record
    [("error",
      .record [("code", .ofString f.kind.code), ("message", .string f.message)])]

/-- The first name in a text, up to a blank, a further `#` or a colon. -/
def leadingName (t : Text) : Text :=
  ((Text.trimStart t).dropWhile (· == '#')).takeWhile fun c =>
    !(Text.isBlank c || c == '#' || c == ':')

/-- Why a text cannot be read as a search: its first name is no column, or something
else. -/
def ofText (catalog : Catalog) (t : Text) : Failure :=
  let name := leadingName t
  if !name.isEmpty && (catalog.resolve? name).isNone then
    unknownColumn name (Spelling.similar? name (catalog.flatMap Column.names))
  else unresolved t

def ofColumnName (catalog : Catalog) (name : Text) : Failure :=
  unknownColumn name (Spelling.similar? name (catalog.map (·.field)))

end Failure

end HashtagSearch
