import HashtagSearch.Operator

/-!
# Columns and catalogs

A column has a field, the identifier used in rows, and a display name. A catalog is
the list of the columns that can be searched. Its fields have to be words that the
search bar can tell apart from each other and from its keywords; `Catalog.check`
finds the first column that breaks a rule.
-/

namespace HashtagSearch

structure Column where
  field : Text
  displayName : Text := []
  searchable : Bool := true
  valueType : ValueType := .text
  deriving DecidableEq, Repr

/-- What people see: the display name, or the field where there is none. -/
def Column.label (c : Column) : Text := if c.displayName.isEmpty then c.field else c.displayName

def Column.names (c : Column) : List Text := [c.field, c.displayName]

abbrev Catalog := List Column

namespace Catalog

/-- The column that `typed` names. -/
def resolve? (catalog : Catalog) (typed : Text) : Option Column :=
  Naming.resolve? Column.names catalog typed

/-- The searchable columns offered while `typed` is being typed after any number of
`#`, in the order of the catalog. -/
def suggestions (catalog : Catalog) (typed : Text) : List Column :=
  Naming.suggestions Column.names (catalog.filter (·.searchable)) (typed.dropWhile (· == '#'))

theorem mem_of_resolve? {catalog : Catalog} {typed : Text} {c : Column}
    (h : catalog.resolve? typed = some c) : c ∈ catalog :=
  Naming.mem_of_resolve? h

inductive Fault
  | emptyField (index : Nat)
  | duplicateField (field : Text)
  | invalidField (field : Text)
  deriving DecidableEq, Repr

def Fault.message : Fault → Text
  | .emptyField index =>
    "column #".toList ++ Text.ofNat index ++ " has an empty field identifier".toList
  | .duplicateField field => "duplicate column field: ".toList ++ field
  | .invalidField field =>
    "invalid column field: ".toList ++ field ++
      " (whitespace, '#' and the keywords and/or/to are not allowed)".toList

/-- The words that no field may be, in any case. -/
def reservedWords : List Text := ["and".toList, "or".toList, "to".toList]

/-- A word of the search language that cannot be typed as a field. -/
def isUntypeable (field : Text) : Bool :=
  field.any Text.isBlank || field.contains '#' ||
    reservedWords.any (Text.sameIgnoringCase field ·)

/-- The first fault of the columns from `index` on, when the columns before them have
the fields `seen` in small letters. -/
def checkFrom (index : Nat) (seen : List Text) : Catalog → Option Fault
  | [] => none
  | c :: rest =>
    let field := Text.trim c.field
    if field.isEmpty then some (.emptyField index)
    else if isUntypeable field then some (.invalidField field)
    else if seen.contains (Text.lower field) then some (.duplicateField field)
    else checkFrom (index + 1) (Text.lower field :: seen) rest

/-- The first fault of the catalog, if it has one. -/
def check (catalog : Catalog) : Option Fault := catalog.checkFrom 0 []

end Catalog

end HashtagSearch
