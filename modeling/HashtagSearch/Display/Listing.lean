import HashtagSearch.Display.Table
import HashtagSearch.Json.Printer
import HashtagSearch.Pattern

/-!
# Columns, operators and rows for people

Each list is a table, or a sentence when it is empty. Rows are shown with a table
column for each column of the catalog or, without a catalog, for each key of the
first row.
-/

namespace HashtagSearch

namespace Display

def typeText (colours : Bool) (t : ValueType) : Text :=
  if colours then
    match t with
    | .text => t.name.toList
    | .number => Style.cyan.wrap t.name.toList
    | .date => Style.magenta.wrap t.name.toList
    | .boolean => Style.yellow.wrap t.name.toList
  else t.name.toList

/-- The name of a type padded to a width. It is coloured in the padded text, since control
sequences have no width. -/
def typeCell (colours : Bool) (width : Nat) (t : ValueType) : Text :=
  let padded := Text.padRight width t.name.toList
  if colours then Text.replace t.name.toList (typeText true t) padded else padded

def columnLine (colours : Bool) (c : Column) : Text :=
  Table.line
    (Table.row [16, 20, 0, 0]
      [Table.clip 16 c.field, Table.clip 20 c.label, typeCell colours 8 c.valueType,
        c.pattern .colon])

def columns (colours : Bool) : List Column → Text
  | [] => "No columns found.\n".toList
  | cs =>
    Table.header colours
        (Table.row [16, 20, 8, 0] (["Field", "Name", "Type", "Pattern"].map String.toList)) ++
      cs.flatMap (columnLine colours)

def operatorLine (o : Operator) : Text :=
  Table.line
    (Table.row [20, 22, 0]
      ['#' :: o.name.toList, o.label.toList,
        Text.joinWith [' '] (o.aliases.map String.toList)])

def operators (colours : Bool) : List Operator → Text
  | [] => "No operators found.\n".toList
  | os =>
    Table.header colours
        (Table.row [20, 22, 0] (["Operator", "Label", "Aliases"].map String.toList)) ++
      os.flatMap operatorLine

/-- A cell of a row; what is missing or null is empty, and a string is shown without
quotes. -/
def cellText : Option Json → Text
  | none | some .null => []
  | some (.string s) => s
  | some v => v.compact

def rowText (cells : List Text) : Text :=
  Text.trimEnd (Text.joinWith [' '] (cells.map fun t => Text.padRight 18 (Table.clip 18 t)))

/-- The fields to show and their headings. -/
def shownFields (catalog : Catalog) (first : Row) : List (Text × Text) :=
  if catalog.isEmpty then first.map fun (key, _) => (key, key)
  else catalog.map fun c => (c.field, c.label)

def rowLine (shown : List (Text × Text)) (row : Row) : Text :=
  Table.line (rowText (shown.map fun (field, _) => cellText (Json.lookup? field row)))

def rows (colours : Bool) (catalog : Catalog) : List Row → Text
  | [] => "No matching rows.\n".toList
  | first :: rest =>
    let shown := shownFields catalog first
    Table.header colours (rowText (shown.map (·.2))) ++ (first :: rest).flatMap (rowLine shown) ++
      '\n' :: (Text.ofNat (rest.length + 1) ++ " row(s)\n".toList)

end Display

end HashtagSearch
