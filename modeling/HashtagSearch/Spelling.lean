import HashtagSearch.Text.EditDistance
import HashtagSearch.Text.LowerCase

/-!
# Names that may have been meant

For a name that is not known, the nearest of the known names is offered if it is near
enough. Names are compared in small letters.
-/

namespace HashtagSearch

namespace Spelling

def changes (s t : Text) : Nat := Text.distance (Text.lower s) (Text.lower t)

/-- The name with the fewest changes, and their number; the first of equally near ones. -/
def nearest? (typed : Text) : List Text → Option (Text × Nat)
  | [] => none
  | name :: names =>
    let n := changes typed name
    match nearest? typed names with
    | some (other, k) => if k < n then some (other, k) else some (name, n)
    | none => some (name, n)

def maxChanges : Nat := 3

/-- The nearest name that is not empty, unless it is too far away or no different. -/
def similar? (typed : Text) (names : List Text) : Option Text :=
  ((nearest? typed (names.filter (!·.isEmpty))).filter fun (_, n) => 0 < n && n ≤ maxChanges).map
    (·.1)

end Spelling

end HashtagSearch
