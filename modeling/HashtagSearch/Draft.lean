import HashtagSearch.Filter

/-!
# Conditions that are being typed

A draft holds as much of a condition as has been typed. The first segment of a search
has to be a whole condition; of the later ones every unfinished shape is understood.
A name alone is an operator of the column in use if it can be, else a column.
-/

namespace HashtagSearch

structure Draft where
  field : Option Text := none
  column : Option Column := none
  operator : Option Operator := none
  value : Option Text := none
  valueTo : Option Text := none
  /-- Set when a range has its low end and the mark after it. -/
  waitingForValueTo : Bool := false
  deriving DecidableEq, Repr

namespace Draft

/-- The draft of which nothing has been typed. -/
def empty : Draft := {}

def ofColumn (column : Column) : Draft := { field := some column.field, column := some column }

def ofOperator (column : Column) (operator : Operator) : Draft :=
  { ofColumn column with operator := some operator }

def hasValue (d : Draft) : Bool := d.value.any (!·.isEmpty)

def isComplete (d : Draft) : Bool := d.column.isSome && d.operator.isSome && d.hasValue

/-- The condition that a complete draft is; its field is that of the column. -/
def condition? (d : Draft) : Option Condition :=
  match d.column, d.operator, d.value with
  | some column, some operator, some (c :: value) =>
    some (.on column operator (c :: value) d.valueTo)
  | _, _, _ => none

def withValue (d : Draft) (value : Text) : Draft :=
  if value.isEmpty then d else { d with value := some value }

def ofRange (d : Draft) (value : Text) (confirmed : Bool) : Draft :=
  match ValueRange.read? value confirmed, ValueRange.openEnd? value with
  | some range, _ => { d with value := some range.low, valueTo := some range.high }
  | none, some low => { d with value := some low, waitingForValueTo := true }
  | none, none => d.withValue value

/-- The draft with a value free of marks; one with a tag in it is not taken. -/
def ofStripped (column : Column) (operator : Operator) (value : Text) (confirmed : Bool) : Draft :=
  if Confirmation.holdsTag value operator.isRange then ofOperator column operator
  else if operator.isRange then (ofOperator column operator).ofRange value confirmed
  else (ofOperator column operator).withValue value

/-- The draft with the value as it was typed. -/
def ofValue (column : Column) (operator : Operator) (raw : Text) (confirmed : Bool) : Draft :=
  ofStripped column operator (Confirmation.strip raw) confirmed

/-- The column and the draft of the first segment, which has to be whole. -/
def ofFirst? (catalog : Catalog) (t : Text) : Option (Column × Draft) :=
  match Segment.ofText (Text.trim t) with
  | .explicit column operator value =>
    (Condition.resolve? catalog column operator).map fun (c, o) => (c, ofValue c o value true)
  | _ => none

/-- The draft of a later segment, where `base` is the column of the first segment and
`running` the column in use before it. -/
def ofSegment (catalog : Catalog) (base running : Column) (confirmed : Bool) : Segment → Draft
  | .explicit column operator value =>
    match Condition.resolve? catalog column operator with
    | some (c, o) => ofValue c o value confirmed
    | none => empty
  | .named column operator =>
    match catalog.resolve? column with
    | some c => { ofColumn c with operator := Operator.resolve? c.valueType operator }
    | none => empty
  | .opened column =>
    match catalog.resolve? column with
    | some c => ofColumn c
    | none => empty
  | .continued operator value =>
    match Operator.resolve? base.valueType operator with
    | some o => ofValue base o value confirmed
    | none => empty
  | .tag name =>
    match Operator.resolve? running.valueType name, catalog.resolve? name with
    | some o, _ => ofOperator running o
    | none, some c => ofColumn c
    | none, none => empty
  | .blank | .other => empty

/-- The drafts of the segments after the first. All but the last are confirmed by what
follows; the last is if the search is `triggered` or its segment says so itself. -/
def ofSegments (catalog : Catalog) (base : Column) (triggered : Bool) :
    (running : Column) → List (Join × Text) → List (Join × Draft)
  | _, [] => []
  | running, (join, t) :: rest =>
    let confirmed := !rest.isEmpty || triggered || Confirmation.isConfirmed t
    let draft := ofSegment catalog base running confirmed (Segment.ofText (Text.trim t))
    (join, draft) :: ofSegments catalog base triggered (draft.column.getD base) rest

end Draft

end HashtagSearch
