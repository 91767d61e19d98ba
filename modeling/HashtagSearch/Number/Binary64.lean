/-!
# Binary numbers of double precision

Every finite number of this precision is a whole number of units of 2⁻¹⁰⁷⁴, so it is
kept as a significand shifted by an exponent, and numbers are compared by their
units. `ofRatio` gives the number nearest to a fraction, a half going to the even
significand; the operations are rounded with it. A number that is not a number
compares with nothing.
-/

namespace HashtagSearch

inductive Binary64
  /-- The significand times two to the exponent, in units of 2⁻¹⁰⁷⁴. -/
  | finite (negative : Bool) (significand exponent : Nat)
  | infinite (negative : Bool)
  | nan
  deriving DecidableEq, Repr

namespace Binary64

def unitsPerOne : Nat := Nat.pow 2 1074

/-- The fraction rounded to a whole number, a half to the even one. -/
def roundHalfEven (num den : Nat) : Nat :=
  let q := num / den
  let r := num % den
  if 2 * r < den then q else if 2 * r > den then q + 1 else q + q % 2

/-- The number with a significand of at most 2⁵³. -/
def normalize (negative : Bool) (significand exponent : Nat) : Binary64 :=
  if significand = Nat.pow 2 53 then
    if 2045 < exponent + 1 then infinite negative
    else finite negative (Nat.pow 2 52) (exponent + 1)
  else if 2045 < exponent then infinite negative
  else finite negative significand exponent

def ofUnits (negative : Bool) (num den : Nat) : Binary64 :=
  let exponent := Nat.log2 (num / den) - 52
  normalize negative (roundHalfEven num (den * Nat.pow 2 exponent)) exponent

/-- The number nearest to a fraction. -/
def ofRatio (negative : Bool) (num den : Nat) : Binary64 :=
  ofUnits negative (num * unitsPerOne) den

def ofInt (n : Int) : Binary64 := ofRatio (n < 0) n.natAbs 1

/-- The number nearest to `digits` times ten to the power of `exponent`. Beyond the
range of the finite numbers nothing has to be computed. -/
def ofDecimal (negative : Bool) (digits : Nat) (exponent : Int) : Binary64 :=
  let magnitude := ((Nat.toDigits 10 digits).length : Int) + exponent
  if digits = 0 ∨ magnitude < -330 then finite negative 0 0
  else if 310 < magnitude then infinite negative
  else ofRatio negative (digits * Nat.pow 10 exponent.toNat) (Nat.pow 10 (-exponent).toNat)

def isZero : Binary64 → Bool
  | finite _ significand _ => significand = 0
  | infinite _ | nan => false

def isFinite : Binary64 → Bool
  | finite .. => true
  | infinite _ | nan => false

def neg : Binary64 → Binary64
  | finite negative significand exponent => finite (!negative) significand exponent
  | infinite negative => infinite (!negative)
  | nan => nan

/-- The number of units of a finite number, the sign aside. -/
def magnitude (significand exponent : Nat) : Nat := significand * Nat.pow 2 exponent

def mul : Binary64 → Binary64 → Binary64
  | finite n m e, finite n' m' e' =>
    ofUnits (n != n') (magnitude m e * magnitude m' e') unitsPerOne
  | _, _ => nan

def div : Binary64 → Binary64 → Binary64
  | finite n m e, finite n' m' e' =>
    if m' = 0 then nan else ofUnits (n != n') (magnitude m e * unitsPerOne) (magnitude m' e')
  | _, _ => nan

def units (negative : Bool) (significand exponent : Nat) : Int :=
  if negative then -(magnitude significand exponent : Int) else magnitude significand exponent

/-- The order of two numbers, if both are numbers. The two zeros are equal. -/
def compare? : Binary64 → Binary64 → Option Ordering
  | nan, _ | _, nan => none
  | infinite n, infinite n' => some (compare n' n)
  | infinite n, finite .. => some (if n then .lt else .gt)
  | finite .., infinite n => some (if n then .gt else .lt)
  | finite n m e, finite n' m' e' => some (compare (units n m e) (units n' m' e'))

end Binary64

end HashtagSearch
