import HashtagSearch.Display.Style

/-!
# Tables

A table is a line of headings, dimmed if there are colours, and a line for each row. Cells are
padded to the width of their column, which counts characters; texts that may be long are cut.
-/

namespace HashtagSearch

namespace Table

/-- The text, or its beginning with three points where it is wider than `width`. -/
def clip (width : Nat) (t : Text) : Text :=
  if t.length ≤ width then t else t.take (width - 3) ++ "...".toList

/-- Cells side by side, each padded to its width; a width of zero is that of the cell. -/
def row (widths : List Nat) (cells : List Text) : Text :=
  Text.joinWith [' '] (List.zipWith Text.padRight widths cells)

def line (t : Text) : Text := t ++ ['\n']

def header (colours : Bool) (t : Text) : Text :=
  if colours then line (Style.dimmed.wrap t) else line t

end Table

end HashtagSearch
