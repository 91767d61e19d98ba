import HashtagSearch.Json.Basic

/-!
# Records in JSON

A record is an object, of which unknown keys are passed over, or the array of its values
in order, of which the last ones may be left out. A choice is its name, or an object
with the name as its only key and nothing under it, which is null and in some places
also the empty object.
-/

namespace HashtagSearch

namespace Json

def text? : Json → Option Text
  | string s => some s
  | _ => none

def bool? : Json → Option Bool
  | bool b => some b
  | _ => none

/-- Whether a value stands outside of all nodes of a tree, or inside of one, where more
ways of writing it are known. -/
inductive Nesting
  | outside
  | inside
  deriving DecidableEq, Repr

/-- Whether the value under the name of a choice is nothing. -/
def isNothing : Nesting → Json → Bool
  | _, null => true
  | .inside, object [] => true
  | _, _ => false

def choice? (nesting : Nesting) : Json → Option Text
  | string s => some s
  | object [(s, v)] => if isNothing nesting v then some s else none
  | _ => none

def named? {α : Type} (name : α → String) (items : List α) (nesting : Nesting) (v : Json) :
    Option α :=
  (v.choice? nesting).bind fun s => items.find? fun a => (name a).toList == s

def list? {α : Type} (decode : Json → Option α) : Json → Option (List α)
  | array items => items.mapM decode
  | _ => none

/-- The values of a record by the names of its fields. -/
def fields? (names : List String) : Json → Option (String → Option Json)
  | object entries => some fun name => lookup? name.toList entries
  | array items =>
    if items.length ≤ names.length then some fun name => items[names.idxOf name]? else none
  | _ => none

/-- A field that may be left out or null. -/
def optional? {α : Type} (decode : Json → Option α) : Option Json → Option (Option α)
  | none | some null => some none
  | some v => (decode v).map some

/-- A field that may be left out. -/
def orDefault? {α : Type} (default : α) (decode : Json → Option α) : Option Json → Option α
  | none => some default
  | some v => decode v

end Json

end HashtagSearch
