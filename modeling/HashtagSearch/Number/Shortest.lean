import HashtagSearch.Number.Binary64

/-!
# The shortest decimal of a binary number

The decimals that are nearer to a binary number than to its neighbours form an
interval. Among those with the fewest digits the nearest one is written, of two
equally near ones that with the even last digit.
-/

namespace HashtagSearch

/-- The digits times ten to the power of the exponent. -/
structure Decimal where
  digits : Nat
  exponent : Int
  deriving DecidableEq, Repr

namespace Decimal

def dropZeros (d : Decimal) : Decimal :=
  if h : d.digits ≠ 0 ∧ d.digits % 10 = 0 then dropZeros ⟨d.digits / 10, d.exponent + 1⟩ else d
termination_by d.digits
decreasing_by omega

end Decimal

namespace Binary64

/-- The interval of the reals that round to a number, with the number in it, all in
quarters of a unit. -/
structure Interval where
  low : Nat
  value : Nat
  high : Nat
  /-- Whether the ends belong to it. -/
  closed : Bool

/-- Below a power of two the neighbour is only half as far away. -/
def interval (significand exponent : Nat) : Interval where
  low := magnitude (4 * significand) exponent -
    if significand = Nat.pow 2 52 ∧ 0 < exponent then Nat.pow 2 exponent
    else 2 * Nat.pow 2 exponent
  value := magnitude (4 * significand) exponent
  high := magnitude (4 * significand + 2) exponent
  closed := significand % 2 = 0

/-- The multiple `n` of ten to the power of `k` that lies in the interval and is nearest
to its value, if the two multiples next to the value are not both outside. -/
def Interval.nearest? (i : Interval) (k : Int) : Option Decimal :=
  let scale := Nat.pow 10 (-k).toNat
  let unit := 4 * unitsPerOne * Nat.pow 10 k.toNat
  let inside := fun n : Nat =>
    if i.closed then i.low * scale ≤ n * unit ∧ n * unit ≤ i.high * scale
    else i.low * scale < n * unit ∧ n * unit < i.high * scale
  let n := i.value * scale / unit
  let rest := i.value * scale % unit
  let below := decide (inside n)
  let above := decide (inside (n + 1))
  if below && above then
    some ⟨if 2 * rest < unit ∨ (2 * rest = unit ∧ n % 2 = 0) then n else n + 1, k⟩
  else if below then some ⟨n, k⟩
  else if above then some ⟨n + 1, k⟩
  else none

def leadingExponent (significand exponent : Nat) : Int :=
  let scaled := magnitude significand exponent * Nat.pow 10 350 / unitsPerOne
  ((Nat.toDigits 10 scaled).length : Int) - 351

/-- The shortest decimal of a positive number; seventeen digits always suffice. -/
def shortest (significand exponent : Nat) : Decimal :=
  let i := interval significand exponent
  let first := leadingExponent significand exponent
  (((List.range 17).findSome? fun (n : Nat) => i.nearest? (first - n)).getD ⟨0, 0⟩).dropZeros

end Binary64

end HashtagSearch
