import HashtagSearch.Json.Basic
import HashtagSearch.Number.Reading

/-!
# Reading JSON

Values nest fewer than `maxDepth` levels. A number is a significand of at most 64 bits
and a power of ten, and is multiplied or divided by that power with rounding; further
digits only count for the power. Each reader returns what follows what it has read.
-/

namespace HashtagSearch

namespace Json

def isBlank (c : Char) : Bool := c == ' ' || c == '\n' || c == '\t' || c == '\r'

def skipBlanks (t : Text) : Text := t.dropWhile isBlank

/-! ## Numbers -/

/-- The parts of a number as they are written. -/
structure NumberText where
  negative : Bool
  whole : Text
  /-- The digits after the point, if there is one. -/
  fraction : Option Text
  exponent : Option Int

def maxSignificand : Nat := Nat.pow 2 64 - 1

/-- The significand with further digits as far as it does not become too large, and how
many digits were taken. -/
def takeDigits (significand : Nat) : Text → Nat × Nat
  | [] => (significand, 0)
  | c :: digits =>
    let next := 10 * significand + (c.toNat - 48)
    if maxSignificand < next then (significand, 0)
    else
      let (result, taken) := takeDigits next digits
      (result, taken + 1)

/-- The quotient by ten to the power of `n`, in steps that stay in range. -/
def divideByPower (x : Binary64) (n : Nat) : Binary64 :=
  if n ≤ 308 then x.div (.ofDecimal false 1 n)
  else if x.isZero then x
  else divideByPower (x.div (.ofDecimal false 1 308)) (n - 308)
termination_by n

/-- The significand times ten to the power of the exponent, unless that is too large. -/
def scale? (significand : Nat) (exponent : Int) : Option Binary64 :=
  let x := Binary64.ofInt significand
  if exponent < 0 then some (divideByPower x exponent.natAbs)
  else if 308 < exponent then if x.isZero then some x else none
  else
    let product := x.mul (.ofDecimal false 1 exponent)
    if product.isFinite then some product else none

def signed (negative : Bool) (x : Binary64) : Binary64 := if negative then x.neg else x

/-- The exponents that are told apart; beyond them a number is zero or too large. -/
def maxExponent : Nat := Nat.pow 2 31 - 1

def NumberText.double? (n : NumberText) : Option Binary64 :=
  let (significand, taken) := takeDigits 0 n.whole
  let dropped := n.whole.length - taken
  let (significand, places) := takeDigits significand (n.fraction.getD [])
  let exponent := n.exponent.getD 0
  (if maxExponent < exponent.natAbs then
      if significand = 0 ∨ exponent < 0 then some (Binary64.finite false 0 0) else none
    else scale? significand (dropped - places + exponent)).map (signed n.negative)

/-- The number that the parts write. Without point and exponent it is an integer if it
has one of 64 bits; minus zero has none. -/
def NumberText.value? (n : NumberText) : Option JsonNumber :=
  let magnitude := Number.natOfDigits n.whole
  if n.fraction.isNone ∧ n.exponent.isNone ∧ ¬n.negative ∧ magnitude ≤ maxSignificand then
    some (.integer magnitude)
  else if n.fraction.isNone ∧ n.exponent.isNone ∧ n.negative ∧ 0 < magnitude ∧
      magnitude ≤ Nat.pow 2 63 then
    some (.integer (-magnitude))
  else n.double?.map .double

/-- Digits of which a leading zero is the only one. -/
def isWhole (digits : Text) : Bool :=
  match digits with
  | [] => false
  | ['0'] => true
  | c :: _ => c != '0'

def readFraction? : Text → Option (Option Text × Text)
  | '.' :: t =>
    if (t.takeWhile Char.isDigit).isEmpty then none
    else some (some (t.takeWhile Char.isDigit), t.dropWhile Char.isDigit)
  | t => some (none, t)

def readPower? : Text → Option (Option Int × Text)
  | [] => some (none, [])
  | c :: t =>
    if c = 'e' ∨ c = 'E' then
      let (negative, t) := Number.readSign t
      if (t.takeWhile Char.isDigit).isEmpty then none
      else
        let n : Int := Number.natOfDigits (t.takeWhile Char.isDigit)
        some (some (if negative then -n else n), t.dropWhile Char.isDigit)
    else some (none, c :: t)

def readUnsigned? (negative : Bool) (t : Text) : Option (JsonNumber × Text) :=
  if isWhole (t.takeWhile Char.isDigit) then
    (readFraction? (t.dropWhile Char.isDigit)).bind fun (fraction, rest) =>
      (readPower? rest).bind fun (exponent, rest) =>
        (NumberText.value? ⟨negative, t.takeWhile Char.isDigit, fraction, exponent⟩).map (·, rest)
  else none

def readNumber? : Text → Option (JsonNumber × Text)
  | '-' :: t => readUnsigned? true t
  | t => readUnsigned? false t

/-! ## Strings -/

def hexValue? (c : Char) : Option Nat :=
  if c.isDigit then some (c.toNat - 48)
  else if 'a' ≤ c ∧ c ≤ 'f' then some (c.toNat - 87)
  else if 'A' ≤ c ∧ c ≤ 'F' then some (c.toNat - 55)
  else none

def readHex? : Text → Option (Nat × Text)
  | a :: b :: c :: d :: t =>
    match hexValue? a, hexValue? b, hexValue? c, hexValue? d with
    | some a, some b, some c, some d => some (((a * 16 + b) * 16 + c) * 16 + d, t)
    | _, _, _, _ => none
  | _ => none

def isHighSurrogate (n : Nat) : Bool := 0xD800 ≤ n && n ≤ 0xDBFF

def isLowSurrogate (n : Nat) : Bool := 0xDC00 ≤ n && n ≤ 0xDFFF

/-- The character of an escape with digits; two escapes write a character beyond
U+FFFF, and half of such a pair writes none. -/
def readUnicode? (t : Text) : Option (Char × Text) :=
  match readHex? t with
  | some (high, '\\' :: 'u' :: rest) =>
    if isHighSurrogate high then
      match readHex? rest with
      | some (low, rest) =>
        if isLowSurrogate low then
          some (Char.ofNat (0x10000 + (high - 0xD800) * 0x400 + (low - 0xDC00)), rest)
        else none
      | none => none
    else if isLowSurrogate high then none
    else some (Char.ofNat high, '\\' :: 'u' :: rest)
  | some (n, rest) =>
    if isHighSurrogate n || isLowSurrogate n then none else some (Char.ofNat n, rest)
  | none => none

def readEscape? : Text → Option (Char × Text)
  | '"' :: t => some ('"', t)
  | '\\' :: t => some ('\\', t)
  | '/' :: t => some ('/', t)
  | 'b' :: t => some ('\x08', t)
  | 'f' :: t => some ('\x0c', t)
  | 'n' :: t => some ('\n', t)
  | 'r' :: t => some ('\r', t)
  | 't' :: t => some ('\t', t)
  | 'u' :: t => readUnicode? t
  | _ => none

/-- The characters of a string up to its closing quote, and what follows that. Each
character takes one step. -/
def readChars? : (steps : Nat) → Text → Option (Text × Text)
  | 0, _ => none
  | _ + 1, [] => none
  | steps + 1, c :: t =>
    if c = '"' then some ([], t)
    else if c = '\\' then
      (readEscape? t).bind fun (c, rest) =>
        (readChars? steps rest).map fun (s, rest) => (c :: s, rest)
    else if c.toNat < 0x20 then none
    else (readChars? steps t).map fun (s, rest) => (c :: s, rest)

def readString? : Text → Option (Text × Text)
  | '"' :: t => readChars? t.length t
  | _ => none

/-! ## Values -/

def afterWord? (word : String) (t : Text) : Option Text :=
  if word.toList.isPrefixOf t then some (t.drop word.length) else none

def readScalar? (t : Text) : Option (Json × Text) :=
  match t with
  | '"' :: _ => (readString? t).map fun (s, rest) => (string s, rest)
  | 'n' :: _ => (afterWord? "null" t).map (null, ·)
  | 't' :: _ => (afterWord? "true" t).map (bool true, ·)
  | 'f' :: _ => (afterWord? "false" t).map (bool false, ·)
  | _ => (readNumber? t).map fun (n, rest) => (number n, rest)

/-- How many levels of arrays and objects are too many. -/
def maxDepth : Nat := 128

mutual

/-- The value at the head of the text, in fewer than `depth` levels. Each of the readers
of values takes at most `steps` steps. -/
def readValue? (steps depth : Nat) (t : Text) : Option (Json × Text) :=
  match steps, depth, skipBlanks t with
  | steps + 1, depth + 2, '[' :: t =>
    match skipBlanks t with
    | ']' :: rest => some (array [], rest)
    | t => (readItems? steps (depth + 1) t).map fun (items, rest) => (array items, rest)
  | steps + 1, depth + 2, '\x7b' :: t =>
    match skipBlanks t with
    | '\x7d' :: rest => some (object [], rest)
    | t =>
      (readEntries? steps (depth + 1) t).map fun (entries, rest) =>
        (object (sortEntries entries), rest)
  | _ + 1, _, t => readScalar? t
  | 0, _, _ => none

def readItems? (steps depth : Nat) (t : Text) : Option (List Json × Text) :=
  match steps with
  | 0 => none
  | steps + 1 =>
    match readValue? steps depth t with
    | some (v, rest) =>
      match skipBlanks rest with
      | ']' :: rest => some ([v], rest)
      | ',' :: rest => (readItems? steps depth rest).map fun (items, rest) => (v :: items, rest)
      | _ => none
    | none => none

def readEntries? (steps depth : Nat) (t : Text) : Option (List (Text × Json) × Text) :=
  match steps with
  | 0 => none
  | steps + 1 =>
    match readString? (skipBlanks t) with
    | some (key, rest) =>
      match skipBlanks rest with
      | ':' :: rest =>
        match readValue? steps depth rest with
        | some (v, rest) =>
          match skipBlanks rest with
          | '\x7d' :: rest => some ([(key, v)], rest)
          | ',' :: rest =>
            (readEntries? steps depth rest).map fun (entries, rest) => ((key, v) :: entries, rest)
          | _ => none
        | none => none
      | _ => none
    | none => none

end

/-- The value that the whole text writes. -/
def ofText? (t : Text) : Option Json :=
  match readValue? (2 * t.length + 1) maxDepth t with
  | some (v, rest) => if (skipBlanks rest).isEmpty then some v else none
  | none => none

end Json

end HashtagSearch
