import HashtagSearch.Number.Shortest
import HashtagSearch.Text.Basic

/-!
# JSON values

The entries of an object are kept in the order in which they are written. Objects
that are read have their keys in the order of code points, each of them once.
-/

namespace HashtagSearch

/-- A whole number of 64 bits, signed or unsigned, or a binary number. -/
inductive JsonNumber
  | integer (n : Int)
  | double (x : Binary64)
  deriving DecidableEq, Repr

inductive Json
  | null
  | bool (b : Bool)
  | number (n : JsonNumber)
  | string (s : Text)
  | array (items : List Json)
  | object (entries : List (Text × Json))
  deriving Repr

def JsonNumber.toBinary64 : JsonNumber → Binary64
  | integer n => .ofInt n
  | double x => x

namespace Json

def record (entries : List (String × Json)) : Json :=
  object (entries.map fun (key, value) => (key.toList, value))

def ofString (s : String) : Json := string s.toList

def ofNat (n : Nat) : Json := number (.integer n)

def ofOption {α : Type} (f : α → Json) : Option α → Json
  | some a => f a
  | none => null

def ofList {α : Type} (f : α → Json) (items : List α) : Json := array (items.map f)

/-- The entry of a key that is left out when there is no value. -/
def optional {α : Type} (key : String) (f : α → Json) : Option α → List (String × Json)
  | some a => [(key, f a)]
  | none => []

def isNull : Json → Bool
  | null => true
  | _ => false

def lookup? (key : Text) (entries : List (Text × Json)) : Option Json :=
  (entries.find? (·.1 == key)).map (·.2)

/-- The entries in order with one more; the value of a key that is there is replaced. -/
def insert (key : Text) (value : Json) : List (Text × Json) → List (Text × Json)
  | [] => [(key, value)]
  | (k, v) :: entries =>
    match compare key k with
    | .lt => (key, value) :: (k, v) :: entries
    | .eq => (key, value) :: entries
    | .gt => (k, v) :: insert key value entries

/-- The entries in the order of their keys; of equal keys the last one counts. -/
def sortEntries (entries : List (Text × Json)) : List (Text × Json) :=
  entries.foldl (fun sorted (key, value) => insert key value sorted) []

end Json

abbrev Row := List (Text × Json)

end HashtagSearch
