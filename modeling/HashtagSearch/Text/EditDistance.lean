import HashtagSearch.Text.Basic

/-!
# Edit distance

The least number of insertions, deletions and replacements of single characters
that turn one text into another, computed row by row.
-/

namespace HashtagSearch.Text

/-- The next row of the distance table: entry `j` is the distance between the text
read so far with `c` and the first `j` characters of the other text. `left` is the
entry just written, the list holds the old row. -/
def nextRow (c : Char) (left : Nat) : Text → List Nat → List Nat
  | d :: t, diagonal :: above :: row =>
    let entry := min (min left above + 1) (diagonal + if c = d then 0 else 1)
    entry :: nextRow c entry t (above :: row)
  | _, _ => []

def distanceRow (s t : Text) : List Nat :=
  s.foldl (fun row c => let first := row.headD 0 + 1; first :: nextRow c first t row)
    (List.range (t.length + 1))

def distance (s t : Text) : Nat := (distanceRow s t).getLastD 0

end HashtagSearch.Text
