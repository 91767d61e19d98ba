import HashtagSearch.Text.Basic

/-!
# Styles

A terminal is told of the style of a text by a control sequence in front of it and one behind.
-/

namespace HashtagSearch

inductive Style
  | bold
  | dimmed
  | green
  | yellow
  | magenta
  | cyan
  deriving DecidableEq, Repr

namespace Style

/-- The number of the rendition that starts the style. -/
def start : Style → Nat
  | bold => 1
  | dimmed => 2
  | green => 32
  | yellow => 33
  | magenta => 35
  | cyan => 36

/-- The number of the rendition that ends the style. -/
def stop : Style → Nat
  | bold | dimmed => 0
  | green | yellow | magenta | cyan => 39

/-- The control sequence that selects a rendition. -/
def sequence (n : Nat) : Text := ['\x1b', '['] ++ Text.ofNat n ++ ['m']

def wrap (style : Style) (t : Text) : Text := sequence style.start ++ t ++ sequence style.stop

end Style

end HashtagSearch
