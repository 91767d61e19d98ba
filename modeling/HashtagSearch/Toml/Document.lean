import HashtagSearch.Json.Basic

/-!
# TOML documents

A document is a list of statements: headers of tables and of elements of arrays of
tables, and pairs that belong to the last header. A table may be opened once; a dotted
key adds to tables that dotted keys have made and to no others. The document that the
statements build is given as JSON.
-/

namespace HashtagSearch

namespace Toml

structure Key where
  path : List Text
  last : Text
  deriving DecidableEq, Repr

inductive Statement
  | table (key : Key)
  | element (key : Key)
  | pair (key : Key) (value : Json)

/-- What a table was made by: its header, a longer header, or a dotted key. -/
inductive Origin
  | header
  | longerHeader
  | dottedKey
  deriving DecidableEq, Repr

mutual

inductive Item
  | value (v : Json)
  | table (t : Table)
  /-- The elements of an array of tables, the last one first. -/
  | elements (last : Table) (before : List Table)

structure Table where
  origin : Origin
  entries : List (Text × Item)

end

namespace Table

def empty (origin : Origin) : Table := ⟨origin, []⟩

def get? (t : Table) (key : Text) : Option Item := (t.entries.find? (·.1 == key)).map (·.2)

/-- The table with an item under a key, in the place of the one that was there. -/
def set (t : Table) (key : Text) (item : Item) : Table :=
  if (t.get? key).isSome then
    ⟨t.origin, t.entries.map fun (k, i) => if k == key then (k, item) else (k, i)⟩
  else ⟨t.origin, t.entries ++ [(key, item)]⟩

/-- The table with the one under `path` changed by `change`. Missing tables are made on
the way; of an array of tables the last element is meant. A dotted key passes only
through tables that have no header. -/
def update (made : Origin) (change : Table → Option Table) : List Text → Table → Option Table
  | [], t => change t
  | key :: path, t =>
    match t.get? key with
    | none => (update made change path (empty made)).map fun inner => t.set key (.table inner)
    | some (.value _) => none
    | some (.table inner) =>
      if made = .dottedKey ∧ inner.origin = .header then none
      else (update made change path inner).map fun inner => t.set key (.table inner)
    | some (.elements last before) =>
      (update made change path last).map fun last => t.set key (.elements last before)

/-- The table with a value under a new key; a dotted key adds to tables of dotted keys
only, and a simple one to all others. -/
def addPair (key : Key) (value : Json) (t : Table) : Option Table :=
  update .dottedKey
    (fun t =>
      if (t.origin == .dottedKey) == key.path.isEmpty || (t.get? key.last).isSome then none
      else some (t.set key.last (.value value)))
    key.path t

def openTable (key : Key) (t : Table) : Option Table :=
  update .longerHeader
    (fun t =>
      match t.get? key.last with
      | none => some (t.set key.last (.table (empty .header)))
      | some (.table ⟨.longerHeader, entries⟩) =>
        some (t.set key.last (.table ⟨.header, entries⟩))
      | some _ => none)
    key.path t

def openElement (key : Key) (t : Table) : Option Table :=
  update .longerHeader
    (fun t =>
      match t.get? key.last with
      | none => some (t.set key.last (.elements (empty .header) []))
      | some (.elements last before) =>
        some (t.set key.last (.elements (empty .header) (last :: before)))
      | some _ => none)
    key.path t

end Table

mutual

def Item.toJson : Item → Json
  | .value v => v
  | .table t => t.toJson
  | .elements last before => .array (tablesToJson before ++ [last.toJson])

def Table.toJson : Table → Json
  | ⟨_, entries⟩ => .object (Json.sortEntries (entriesToJson entries))

/-- The tables from the last to the first. -/
def tablesToJson : List Table → List Json
  | [] => []
  | t :: ts => tablesToJson ts ++ [t.toJson]

def entriesToJson : List (Text × Item) → List (Text × Json)
  | [] => []
  | (k, i) :: entries => (k, i.toJson) :: entriesToJson entries

end

/-- The path to the table that the last header opened. -/
abbrev Section := List Text

def addStatement (state : Table × Section) : Statement → Option (Table × Section)
  | .table key => (state.1.openTable key).map (·, key.path ++ [key.last])
  | .element key => (state.1.openElement key).map (·, key.path ++ [key.last])
  | .pair key value =>
    (state.1.update .longerHeader (Table.addPair key value) state.2).map (·, state.2)

/-- The document that the statements build, unless one contradicts those before it. -/
def build? (statements : List Statement) : Option Json :=
  (statements.foldlM addStatement (Table.empty .header, [])).map fun (t, _) => t.toJson

def inlineTable? (pairs : List (Key × Json)) : Option Json :=
  (pairs.foldlM (fun t (key, value) => Table.addPair key value t) (Table.empty .header)).map
    Table.toJson

end Toml

end HashtagSearch
