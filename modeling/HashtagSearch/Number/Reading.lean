import HashtagSearch.Number.Binary64
import HashtagSearch.Text.Basic

/-!
# Reading numbers

A number is a sign, digits with a point somewhere among them, and an exponent; it
stands for the nearest binary number. The words for infinity and for what is no
number are read as well, in any case.
-/

namespace HashtagSearch

namespace Number

def natOfDigits (t : Text) : Nat := t.foldl (fun n c => 10 * n + (c.toNat - 48)) 0

def readSign : Text → Bool × Text
  | '-' :: t => (true, t)
  | '+' :: t => (false, t)
  | t => (false, t)

/-- The integer of an optional sign and at least one digit. -/
def readExponent? (t : Text) : Option Int :=
  let (negative, digits) := readSign t
  if digits.isEmpty || !digits.all Char.isDigit then none
  else some (if negative then -(natOfDigits digits : Int) else natOfDigits digits)

/-- The digits before and after the point, and what follows them. -/
def readDigits (t : Text) : Text × Text × Text :=
  let whole := t.takeWhile Char.isDigit
  match t.dropWhile Char.isDigit with
  | '.' :: rest => (whole, rest.takeWhile Char.isDigit, rest.dropWhile Char.isDigit)
  | rest => (whole, [], rest)

/-- The exponent that follows the digits, zero at the end of the text. -/
def readScale? : Text → Option Int
  | [] => some 0
  | c :: t => if c = 'e' ∨ c = 'E' then readExponent? t else none

def readDecimal? (negative : Bool) (t : Text) : Option Binary64 :=
  let (whole, fraction, rest) := readDigits t
  if whole.isEmpty && fraction.isEmpty then none
  else
    (readScale? rest).map fun exponent =>
      Binary64.ofDecimal negative (natOfDigits (whole ++ fraction)) (exponent - fraction.length)

/-- The number that a word stands for. -/
def readWord? (negative : Bool) (t : Text) : Option Binary64 :=
  if Text.sameIgnoringCase t "inf".toList || Text.sameIgnoringCase t "infinity".toList then
    some (.infinite negative)
  else if Text.sameIgnoringCase t "nan".toList then some .nan
  else none

/-- The number that a text without blanks around it writes. -/
def read? (t : Text) : Option Binary64 :=
  let (negative, t) := readSign t
  (readDecimal? negative t).or (readWord? negative t)

end Number

end HashtagSearch
