import HashtagSearch.Number.Reading

/-!
# Calendar dates

Dates are those of the Gregorian calendar, extended to all years, and are ordered by
year, month and day. A date is written as year, month and day with hyphens between;
blanks may stand in front of each number and leading zeros may be left out.
-/

namespace HashtagSearch

structure Date where
  year : Int
  month : Nat
  day : Nat
  deriving DecidableEq, Repr

namespace Date

def isLeapYear (year : Int) : Bool := year % 4 = 0 ∧ (year % 100 ≠ 0 ∨ year % 400 = 0)

def daysInMonth (year : Int) (month : Nat) : Nat :=
  if month = 2 then if isLeapYear year then 29 else 28
  else if month = 4 ∨ month = 6 ∨ month = 9 ∨ month = 11 then 30
  else 31

/-- The years for which dates are kept. -/
def isYear (year : Int) : Bool := -262143 ≤ year ∧ year ≤ 262142

/-- The date with the given parts, if the calendar has it. -/
def ofParts? (year : Int) (month day : Nat) : Option Date :=
  if isYear year ∧ 1 ≤ month ∧ month ≤ 12 ∧ 1 ≤ day ∧ day ≤ daysInMonth year month then
    some ⟨year, month, day⟩
  else none

/-- The order in time. -/
instance : Ord Date :=
  ⟨fun a b => ((compare a.year b.year).then (compare a.month b.month)).then (compare a.day b.day)⟩

def readNumber? (most : Nat) (t : Text) : Option (Nat × Text) :=
  let digits := (t.take most).takeWhile Char.isDigit
  if digits.isEmpty then none else some (Number.natOfDigits digits, t.drop digits.length)

/-- The year at the head of the text: with a sign it may have any number of digits, else
at most four. -/
def readYear? (t : Text) : Option (Int × Text) :=
  match t with
  | '-' :: t => (readNumber? t.length t).map fun (n, rest) => (-(n : Int), rest)
  | '+' :: t => (readNumber? t.length t).map fun (n, rest) => ((n : Int), rest)
  | t => (readNumber? 4 t).map fun (n, rest) => ((n : Int), rest)

def readPart? (t : Text) : Option (Nat × Text) :=
  match t with
  | '-' :: t => readNumber? 2 (Text.trimStart t)
  | _ => none

def ofText? (t : Text) : Option Date :=
  (readYear? (Text.trimStart t)).bind fun (year, rest) =>
    (readPart? rest).bind fun (month, rest) =>
      (readPart? rest).bind fun (day, rest) =>
        if rest.isEmpty then ofParts? year month day else none

/-- The characters that make up the first `size` bytes, if none lies across their end. -/
def takeBytes? : (size : Nat) → Text → Option Text
  | 0, _ => some []
  | _ + 1, [] => none
  | size + 1, c :: t =>
    if size + 1 < c.utf8Size then none
    else (takeBytes? (size + 1 - c.utf8Size) t).map (c :: ·)
termination_by _ t => t.length

/-- The date at the start of a text. Of a longer text, such as a date with a time, only
the ten bytes that a date takes are read. -/
def read? (t : Text) : Option Date :=
  ofText? ((takeBytes? 10 (Text.trim t)).getD (Text.trim t))

end Date

end HashtagSearch
