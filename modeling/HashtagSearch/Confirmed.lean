import HashtagSearch.Filter

/-!
# Finished searches without groups

A confirmed search is cut at its joins. A segment that is no condition is dropped
together with the join in front of it. The first segment names the column that the
later ones may leave out. The shorthand `#column:value` is a search of its own.
-/

namespace HashtagSearch

namespace Confirmed

/-- The conditions of the segments; the column of the first one is the default. -/
def conditions? (catalog : Catalog) (segments : Joined Text) : Option (Joined Condition) :=
  let column := (Condition.ofText? none catalog segments.head).map (·.column)
  segments.filterMap (Condition.ofText? column catalog)

/-- The confirmed text without its confirmation. -/
def body? (t : Text) : Option Text := Text.dropEnding? Confirmation.mark (Text.trimEnd t)

/-- The filter that a confirmed search with joins asks for; it needs two conditions. -/
def read? (catalog : Catalog) (t : Text) : Option Filter :=
  if countJoins t = 0 then none
  else
    (body? t).bind fun body =>
      (conditions? catalog (Joined.ofText body)).bind fun s =>
        if s.tail.isEmpty then none else Filter.ofJoined? s

end Confirmed

namespace Shorthand

/-- The characters of a column before the colon. -/
def isFieldChar (c : Char) : Bool := Token.isNameChar c && c != ':'

/-- The name of the column and the value on the same line. -/
def parts? (t : Text) : Option (Text × Text) :=
  match t with
  | '#' :: t =>
    match t.dropWhile isFieldChar with
    | ':' :: value =>
      if (t.takeWhile isFieldChar).isEmpty || value.contains '\n' then none
      else some (t.takeWhile isFieldChar, value)
    | _ => none
  | _ => none

def operator (column : Column) : Operator :=
  if Operator.contains.supports column.valueType then .contains else .equals

/-- The filter that the shorthand `#column:value` asks for. -/
def read? (catalog : Catalog) (t : Text) : Option Filter :=
  (parts? (Text.trim t)).bind fun (name, raw) =>
    (catalog.resolve? name).bind fun column =>
      if (Confirmation.strip raw).isEmpty then none
      else
        some { Filter.single (.on column (operator column) (Confirmation.strip raw)) with
          isExplicitOperator := false }

end Shorthand

end HashtagSearch
