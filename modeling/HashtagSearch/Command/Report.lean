import HashtagSearch.Display.Listing
import HashtagSearch.Display.Search
import HashtagSearch.Settings

/-!
# What a command reports

A report is given as JSON or as text for people. Quiet runs leave out the text of all
reports but those that are asked for as a text.
-/

namespace HashtagSearch

open Json

inductive Report
  | overview
  | outcome (o : Outcome)
  | typing (s : TypingState)
  | operators (column : Column) (term : Text) (items : List Operator)
  | columns (items : List Column)
  | rows (kind : String) (total : Nat) (catalog : Catalog) (items : List Row)
  | pattern (f : Filter) (text : Text)
  | settings (path : Text) (isPresent : Bool) (s : Settings)
  | settingsPath (path : Text) (isPresent : Bool)
  | settingsCreated (path : Text)

namespace Report

/-! ## As JSON -/

def columnJson (c : Column) : Json :=
  record
    [("field", string c.field), ("displayName", string c.label),
      ("valueType", c.valueType.toJson), ("searchable", bool c.searchable),
      ("pattern", string (c.pattern .colon))]

def operatorJson (o : Operator) : Json :=
  record
    [("name", ofString o.name), ("label", ofString o.label), ("aliases", ofList ofString o.aliases)]

def toJson? : Report → Option Json
  | overview => none
  | outcome o => some o.toJson
  | typing s => some s.toJson
  | operators column term items =>
    some <| record
      [("column", string column.field), ("term", string term),
        ("operators", ofList operatorJson items)]
  | columns items => some <| record [("columns", ofList columnJson items)]
  | rows kind total _ items =>
    some <| record
      [("kind", ofString kind), ("total", ofNat total), ("count", ofNat items.length),
        ("rows", ofList Row.toJson items)]
  | pattern f text =>
    some <| record
      [("field", string f.primary.field), ("operator", f.primary.operator.toJson),
        ("pattern", string text)]
  | settings path isPresent s =>
    some <| record [("config", s.toJson), ("exists", bool isPresent), ("path", string path)]
  | settingsPath path isPresent =>
    some <| record [("exists", bool isPresent), ("path", string path)]
  | settingsCreated path =>
    some <| record [("path", string path), ("status", ofString "success")]

/-! ## For people -/

def boolName (b : Bool) : String := if b then "true" else "false"

def optionalLine (name : String) : Option Text → Text
  | none => []
  | some t => Table.line (name.toList ++ t)

def settingsColumnLine (c : Column) : Text :=
  Table.line ("  ".toList ++ c.field ++ " (".toList ++ c.valueType.name.toList ++ [')'])

def settingsText (colours : Bool) (path : Text) (isPresent : Bool) (s : Settings) : Text :=
  Display.heading colours "Configuration" ++ "\nFile: ".toList ++ Table.line path ++
    "Exists: ".toList ++ (boolName isPresent).toList ++ "\n\n".toList ++
    if isPresent then
      "Settings:\n".toList ++ optionalLine "  default_column: " s.defaultColumn ++
        "\n[output]\n".toList ++
        optionalLine "  color: " (s.colour.map fun b => (boolName b).toList) ++
        "\n[[columns]] (".toList ++ Text.ofNat s.columns.length ++ ")\n".toList ++
        s.columns.flatMap settingsColumnLine
    else "(No config file exists. Run 'hq config init' to create one.)\n".toList

def text (colours : Bool) : Report → Text
  | overview =>
    "hq - hashtag search-bar queries\nUse --help for usage information\n".toList
  | outcome o => Display.outcome colours o
  | typing s => Display.typing colours s
  | operators _ _ items => Display.operators colours items
  | columns items => Display.columns colours items
  | rows _ _ catalog items => Display.rows colours catalog items
  | pattern _ text => Table.line text
  | settings path isPresent s => settingsText colours path isPresent s
  | settingsPath path _ => Table.line path
  | settingsCreated path => "Created config at: ".toList ++ Table.line path

/-- Whether the text is what is asked for, which quiet runs give as well. -/
def isText : Report → Bool
  | pattern .. | settingsPath .. => true
  | _ => false

def output (json quiet colours : Bool) (r : Report) : Text :=
  match json, r.toJson? with
  | true, some v => v.pretty ++ ['\n']
  | _, _ => if quiet && !r.isText then [] else r.text colours

end Report

end HashtagSearch
