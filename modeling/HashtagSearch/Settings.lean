import HashtagSearch.Environment
import HashtagSearch.Path
import HashtagSearch.Shape
import HashtagSearch.Toml.Reader

/-!
# Settings

The columns that are searched, the column meant where a condition names none, and
whether output has colours are set in a TOML document. Everything in it may be left out,
and what is not known is passed over. A document of a newer version is refused.
-/

namespace HashtagSearch

open Json

structure Settings where
  defaultColumn : Option Text := none
  colour : Option Bool := none
  columns : Catalog := []
  deriving Repr

namespace Settings

/-- The version of the documents that are understood. -/
def version : Nat := 1

inductive Fault
  | malformed
  | newer (version : Nat)
  deriving DecidableEq, Repr

/-! ## Decoding -/

/-- The values of a table by the names of its fields. An array gives them in order, and
what is left over in it does not count. -/
def fields? (names : List String) : Json → Option (String → Option Json)
  | .array items => Json.fields? names (.array (items.take names.length))
  | v => Json.fields? names v

/-- A value type by its name, which may also be the only key of a table with nothing under
it. -/
def valueType? : Json → Option ValueType
  | .string name | .object [(name, .object [])] | .object [(name, .array [])] =>
    ValueType.ofJson? .outside (.string name)
  | _ => none

def column? (v : Json) : Option Column :=
  (fields? Column.fieldNames v).bind (Column.ofFields? valueType?)

/-- A whole number of 32 bits without a sign. -/
def version? : Json → Option Nat
  | .number (.integer n) => if 0 ≤ n ∧ n < Int.pow 2 32 then some n.toNat else none
  | _ => none

/-- Whether output has colours; an array has to say so. -/
def output? (v : Json) : Option (Option Bool) := do
  match ← fields? ["color"] v, v with
  | get, .array _ => ((get "color").bind bool?).map some
  | get, _ => optional? bool? (get "color")

/-- The version and the settings of a document. -/
def ofDocument? (v : Json) : Option (Nat × Settings) := do
  let get ← fields? ["version", "default_column", "output", "columns"] v
  let version ← orDefault? version version? (get "version")
  let defaultColumn ← optional? text? (get "default_column")
  let colour ← orDefault? none output? (get "output")
  let columns ← orDefault? [] (list? column?) (get "columns")
  return (version, { defaultColumn, colour, columns })

def read (t : Text) : Except Fault Settings :=
  match (Toml.ofText? t).bind ofDocument? with
  | none => .error .malformed
  | some (v, settings) => if version < v then .error (.newer v) else .ok settings

/-! ## Writing -/

/-- The settings with the keys of every object in order. -/
def toJson (s : Settings) : Json :=
  record
    ([("columns",
        ofList
          (fun c : Column =>
            record
              [("displayName", string c.displayName), ("field", string c.field),
                ("searchable", bool c.searchable), ("valueType", c.valueType.toJson)])
          s.columns)] ++
      optional "default_column" string s.defaultColumn ++
      [("output", record (optional "color" bool s.colour)), ("version", ofNat version)])

def sample : Text :=
  Text.joinWith ['\n']
    (["# hq - hashtag query configuration",
      "",
      "# Config schema version (do not modify)",
      "version = 1",
      "",
      "# Column used by \"#operator value\" text",
      "default_column = \"name\"",
      "",
      "# Output preferences",
      "[output]",
      "# color = true              # Enable colors (respects NO_COLOR env)",
      "",
      "# Column catalog. valueType is one of: text, number, date, boolean",
      "[[columns]]",
      "field = \"name\"",
      "displayName = \"Name\"",
      "",
      "[[columns]]",
      "field = \"stock\"",
      "displayName = \"Stock\"",
      "valueType = \"number\"",
      "",
      "[[columns]]",
      "field = \"expires\"",
      "displayName = \"Expiry Date\"",
      "valueType = \"date\"",
      ""].map String.toList)

/-! ## The file -/

/-- The path of the settings: the one that is given, one that the environment determines, or the
one in the home folder that has been found. -/
def path? (given : Option Text) (environment : Environment) (home : Option Text) : Option Text :=
  given.or <|
    (environment "HQ_CONFIG").or <|
      ((environment "XDG_CONFIG_HOME").map fun folder =>
          Path.join folder "hq/config.toml".toList).or <|
        home.map fun folder => Path.join folder ".config/hq/config.toml".toList

end Settings

end HashtagSearch
