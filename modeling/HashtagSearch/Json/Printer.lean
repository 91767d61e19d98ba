import HashtagSearch.Json.Basic

/-!
# Writing JSON

A value is written compactly on one line or spread over lines with two spaces for
each level. A binary number is written with its shortest decimal, positionally from
10⁻⁵ up to 10¹⁶ and with an exponent beyond.
-/

namespace HashtagSearch

namespace Decimal

def zeros (n : Nat) : Text := List.replicate n '0'

def exponentText (n : Int) : Text :=
  'e' :: (if n < 0 then '-' else '+') :: Text.ofNat n.natAbs

/-- A positive decimal whose first digit stands `point` places before the point. -/
def place (digits : Text) (point : Int) : Text :=
  if 0 < point ∧ point ≤ 16 then
    if digits.length ≤ point.toNat then
      digits ++ zeros (point.toNat - digits.length) ++ ['.', '0']
    else digits.take point.toNat ++ ['.'] ++ digits.drop point.toNat
  else if -5 < point ∧ point ≤ 0 then ['0', '.'] ++ zeros (-point).toNat ++ digits
  else
    digits.take 1 ++ (if digits.length = 1 then [] else '.' :: digits.drop 1) ++
      exponentText (point - 1)

def toText (d : Decimal) : Text :=
  let digits := Text.ofNat d.digits
  place digits (digits.length + d.exponent)

end Decimal

namespace JsonNumber

/-- The number as it is written; there is no text for infinity in JSON. -/
def ofBinary64 : Binary64 → Text
  | .finite negative significand exponent =>
    (if negative then ['-'] else []) ++
      if significand = 0 then ['0', '.', '0']
      else (Binary64.shortest significand exponent).toText
  | .infinite _ | .nan => "null".toList

def toText : JsonNumber → Text
  | integer n => (if n < 0 then ['-'] else []) ++ Text.ofNat n.natAbs
  | double x => ofBinary64 x

end JsonNumber

namespace Json

def hexDigit (n : Nat) : Char := Nat.digitChar n

/-- A character inside a string: quotes, backslashes and control characters are escaped. -/
def escapeChar (c : Char) : Text :=
  if c = '"' then ['\\', '"']
  else if c = '\\' then ['\\', '\\']
  else if c = '\n' then ['\\', 'n']
  else if c = '\r' then ['\\', 'r']
  else if c = '\t' then ['\\', 't']
  else if c = '\x08' then ['\\', 'b']
  else if c = '\x0c' then ['\\', 'f']
  else if c.toNat < 0x20 then
    ['\\', 'u', '0', '0', hexDigit (c.toNat / 16), hexDigit (c.toNat % 16)]
  else [c]

def quote (s : Text) : Text := ['"'] ++ s.flatMap escapeChar ++ ['"']

mutual

/-- The value on one line without blanks. -/
def compact : Json → Text
  | null => "null".toList
  | bool b => (if b then "true" else "false").toList
  | number n => n.toText
  | string s => quote s
  | array items => ['['] ++ compactItems items ++ [']']
  | object entries => ['\x7b'] ++ compactEntries entries ++ ['\x7d']

def compactItems : List Json → Text
  | [] => []
  | [v] => v.compact
  | v :: w :: items => v.compact ++ [','] ++ compactItems (w :: items)

def compactEntries : List (Text × Json) → Text
  | [] => []
  | [(k, v)] => quote k ++ [':'] ++ v.compact
  | (k, v) :: e :: entries => quote k ++ [':'] ++ v.compact ++ [','] ++ compactEntries (e :: entries)

end

def newLine (level : Nat) : Text := '\n' :: List.replicate (2 * level) ' '

mutual

/-- The value over several lines, where `level` is that of the line it starts on. -/
def prettyAt (level : Nat) : Json → Text
  | null => "null".toList
  | bool b => (if b then "true" else "false").toList
  | number n => n.toText
  | string s => quote s
  | array [] => ['[', ']']
  | array items =>
    ['['] ++ newLine (level + 1) ++ prettyItems (level + 1) items ++ newLine level ++ [']']
  | object [] => ['\x7b', '\x7d']
  | object entries =>
    ['\x7b'] ++ newLine (level + 1) ++ prettyEntries (level + 1) entries ++ newLine level ++
      ['\x7d']

def prettyItems (level : Nat) : List Json → Text
  | [] => []
  | [v] => v.prettyAt level
  | v :: w :: items =>
    v.prettyAt level ++ [','] ++ newLine level ++ prettyItems level (w :: items)

def prettyEntries (level : Nat) : List (Text × Json) → Text
  | [] => []
  | [(k, v)] => quote k ++ [':', ' '] ++ v.prettyAt level
  | (k, v) :: e :: entries =>
    quote k ++ [':', ' '] ++ v.prettyAt level ++ [','] ++ newLine level ++
      prettyEntries level (e :: entries)

end

def pretty (v : Json) : Text := prettyAt 0 v

end Json

end HashtagSearch
