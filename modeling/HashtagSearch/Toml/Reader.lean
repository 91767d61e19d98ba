import HashtagSearch.Date
import HashtagSearch.Json.Reader
import HashtagSearch.Toml.Document

/-!
# Reading TOML

A text is read into the statements of a document and these into the document itself.
Integers have 64 bits with a sign. A date or time is given as an object of its own,
which nothing else is read as. Each reader returns what follows what it has read.
-/

namespace HashtagSearch

namespace Toml

/-! ## Blanks, comments and ends of lines -/

def skipBlanks (t : Text) : Text := t.dropWhile fun c => c == ' ' || c == '\t'

/-- The characters that may stand anywhere but at the end of a line. -/
def isLineChar (c : Char) : Bool := c == '\t' || (0x20 ≤ c.toNat && c.toNat != 0x7F)

def afterNewLine? : Text → Option Text
  | '\n' :: t => some t
  | '\r' :: '\n' :: t => some t
  | _ => none

def skipComment : Text → Text
  | '#' :: t => t.dropWhile isLineChar
  | t => t

/-- What follows the line at the head of the text, of which only blanks and a comment
are left. -/
def afterLine? (t : Text) : Option Text :=
  match skipComment (skipBlanks t) with
  | [] => some []
  | rest => afterNewLine? rest

def skipLines : (steps : Nat) → Text → Text
  | 0, t => t
  | steps + 1, t =>
    match skipComment (skipBlanks t) with
    | [] => []
    | rest =>
      match afterNewLine? rest with
      | some rest => skipLines steps rest
      | none => rest

def readHexDigits? (count : Nat) (t : Text) : Option (Nat × Text) :=
  if t.length < count then none
  else
    ((t.take count).mapM Json.hexValue?).map fun digits =>
      (digits.foldl (fun n d => 16 * n + d) 0, t.drop count)

def charOf? (n : Nat) : Option Char := if n.isValidChar then some (Char.ofNat n) else none

/-! ## Strings -/

def readEscape? : Text → Option (Char × Text)
  | 'b' :: t => some ('\x08', t)
  | 't' :: t => some ('\t', t)
  | 'n' :: t => some ('\n', t)
  | 'f' :: t => some ('\x0c', t)
  | 'r' :: t => some ('\r', t)
  | '"' :: t => some ('"', t)
  | '\\' :: t => some ('\\', t)
  | 'u' :: t => (readHexDigits? 4 t).bind fun (n, rest) => (charOf? n).map (·, rest)
  | 'U' :: t => (readHexDigits? 8 t).bind fun (n, rest) => (charOf? n).map (·, rest)
  | _ => none

def readBasic? : (steps : Nat) → Text → Option (Text × Text)
  | 0, _ => none
  | _ + 1, [] => none
  | steps + 1, c :: t =>
    if c = '"' then some ([], t)
    else if c = '\\' then
      (readEscape? t).bind fun (c, rest) =>
        (readBasic? steps rest).map fun (s, rest) => (c :: s, rest)
    else if isLineChar c then (readBasic? steps t).map fun (s, rest) => (c :: s, rest)
    else none

def readLiteral? (t : Text) : Option (Text × Text) :=
  match t.dropWhile fun c => isLineChar c && c != '\'' with
  | '\'' :: rest => some (t.takeWhile fun c => isLineChar c && c != '\'', rest)
  | _ => none

/-- The end of a string over several lines: three quotes, before which up to two more
belong to the string. -/
def readClosing? (quote : Char) (t : Text) : Option (Text × Text) :=
  let count := (t.takeWhile (· == quote)).length
  if count < 3 then none
  else some (List.replicate (min (count - 3) 2) quote, t.drop (min count 5))

/-- What follows a backslash at the end of a line: the blanks and line ends after it do
not count. -/
def afterLineEscape? (steps : Nat) (t : Text) : Option Text :=
  (afterNewLine? (skipBlanks t)).map (skipEmptyLines steps)
where
  skipEmptyLines : Nat → Text → Text
    | 0, t => t
    | steps + 1, t =>
      match afterNewLine? (skipBlanks t) with
      | some rest => skipEmptyLines steps rest
      | none => skipBlanks t

/-- The characters of a string over several lines up to its end; escapes count if it is
in quotation marks. -/
def readLines? (quote : Char) : (steps : Nat) → Text → Option (Text × Text)
  | 0, _ => none
  | _ + 1, [] => none
  | steps + 1, c :: t =>
    match readClosing? quote (c :: t) with
    | some result => some result
    | none =>
      match afterNewLine? (c :: t) with
      | some rest => (readLines? quote steps rest).map fun (s, rest) => ('\n' :: s, rest)
      | none =>
        if c = '\\' ∧ quote = '"' then
          match afterLineEscape? steps t with
          | some rest => readLines? quote steps rest
          | none =>
            (readEscape? t).bind fun (c, rest) =>
              (readLines? quote steps rest).map fun (s, rest) => (c :: s, rest)
        else if isLineChar c then
          (readLines? quote steps t).map fun (s, rest) => (c :: s, rest)
        else none

/-- The text after a line end at its head, which a string over several lines leaves out. -/
def afterFirstNewLine (t : Text) : Text := (afterNewLine? t).getD t

def readString? : Text → Option (Text × Text)
  | '"' :: '"' :: '"' :: t => readLines? '"' (t.length + 1) (afterFirstNewLine t)
  | '\'' :: '\'' :: '\'' :: t => readLines? '\'' (t.length + 1) (afterFirstNewLine t)
  | '"' :: t => readBasic? t.length t
  | '\'' :: t => readLiteral? t
  | _ => none

/-! ## Keys -/

def isKeyChar (c : Char) : Bool := c.isAlphanum || c == '-' || c == '_'

def readPart? : Text → Option (Text × Text)
  | '"' :: t => readBasic? t.length t
  | '\'' :: t => readLiteral? t
  | t =>
    if (t.takeWhile isKeyChar).isEmpty then none
    else some (t.takeWhile isKeyChar, t.dropWhile isKeyChar)

/-- How many levels of tables and arrays are too many. -/
def maxDepth : Nat := 80

/-- A key of at most `parts` parts with blanks around them, and the text after it and its
blanks. -/
def readParts? : (parts : Nat) → Text → Option (Key × Text)
  | 0, _ => none
  | parts + 1, t =>
    match readPart? (skipBlanks t) with
    | none => none
    | some (part, rest) =>
      match skipBlanks rest with
      | '.' :: rest =>
        (readParts? parts rest).map fun (key, rest) => (⟨part :: key.path, key.last⟩, rest)
      | rest => some (⟨[], part⟩, rest)

/-- The key at the head of the text, and the text after it and its blanks. Each part of it
is a level. -/
def readKey? (t : Text) : Option (Key × Text) := readParts? (maxDepth - 1) t

/-! ## Numbers, dates and times -/

/-- Digits with single underscores between them, and what follows. -/
def readDigits? (isDigit : Char → Bool) : (steps : Nat) → Text → Option (Text × Text)
  | 0, _ => none
  | steps + 1, t =>
    let digits := t.takeWhile isDigit
    if digits.isEmpty then none
    else
      match t.dropWhile isDigit with
      | '_' :: rest => (readDigits? isDigit steps rest).map fun (more, rest) => (digits ++ more, rest)
      | rest => some (digits, rest)

/-- The digits of a decimal integer: a zero is followed by no further digit. -/
def readWhole? : Text → Option (Text × Text)
  | '0' :: t => some (['0'], t)
  | t => readDigits? Char.isDigit (t.length + 1) t

def integer? (n : Int) : Option Json :=
  if -Int.pow 2 63 ≤ n ∧ n < Int.pow 2 63 then some (.number (.integer n)) else none

/-- An integer of base sixteen, eight or two, after its leading zero and letter. -/
def readRadix? (radix : Nat) (t : Text) : Option (Json × Text) :=
  let isDigit := fun c => (Json.hexValue? c).any (· < radix)
  (readDigits? isDigit (t.length + 1) t).bind fun (digits, rest) =>
    (integer? (digits.foldl (fun n c => radix * n + (Json.hexValue? c).getD 0) 0 : Nat)).map
      (·, rest)

def readExponent? : Text → Option (Int × Text)
  | c :: t =>
    if c = 'e' ∨ c = 'E' then
      let (negative, t) := Number.readSign t
      (readDigits? Char.isDigit (t.length + 1) t).map fun (digits, rest) =>
        let n : Int := Number.natOfDigits digits
        (if negative then -n else n, rest)
    else none
  | [] => none

/-- The binary number of the given parts, unless it is too large; what is too small below
zero is infinite. -/
def float? (negative : Bool) (whole fraction : Text) (exponent : Int) : Option Json :=
  let x := Binary64.ofDecimal negative (Number.natOfDigits (whole ++ fraction))
    (exponent - fraction.length)
  if x = .infinite false then none else some (.number (.double x))

/-- The number that decimal digits begin: what follows them makes it an integer or not. -/
def readDecimal? (negative : Bool) (t : Text) : Option (Json × Text) :=
  (readWhole? t).bind fun (whole, rest) =>
    match rest with
    | '.' :: rest =>
      (readDigits? Char.isDigit (rest.length + 1) rest).bind fun (fraction, rest) =>
        match rest with
        | c :: _ =>
          if c = 'e' ∨ c = 'E' then
            (readExponent? rest).bind fun (exponent, rest) =>
              (float? negative whole fraction exponent).map (·, rest)
          else (float? negative whole fraction 0).map (·, rest)
        | [] => (float? negative whole fraction 0).map (·, rest)
    | c :: _ =>
      if c = 'e' ∨ c = 'E' then
        (readExponent? rest).bind fun (exponent, rest) =>
          (float? negative whole [] exponent).map (·, rest)
      else
        let n : Int := Number.natOfDigits whole
        (integer? (if negative then -n else n)).map (·, rest)
    | [] =>
      let n : Int := Number.natOfDigits whole
      (integer? (if negative then -n else n)).map (·, rest)

def readWord? (negative : Bool) (t : Text) : Option (Json × Text) :=
  match Json.afterWord? "inf" t, Json.afterWord? "nan" t with
  | some rest, _ => some (.number (.double (.infinite negative)), rest)
  | none, some rest => some (.number (.double .nan), rest)
  | none, none => none

def readNumber? : Text → Option (Json × Text)
  | '0' :: 'x' :: t => readRadix? 16 t
  | '0' :: 'o' :: t => readRadix? 8 t
  | '0' :: 'b' :: t => readRadix? 2 t
  | t =>
    let (negative, t) := Number.readSign t
    (readDecimal? negative t).or (readWord? negative t)

def readFixed? (count : Nat) (t : Text) : Option (Nat × Text) :=
  let digits := t.take count
  if digits.length = count ∧ digits.all Char.isDigit then
    some (Number.natOfDigits digits, t.drop count)
  else none

def readUpTo? (most : Nat) (t : Text) : Option (Nat × Text) :=
  (readFixed? 2 t).filter fun (n, _) => n ≤ most

def afterChar? (c : Char) : Text → Option Text
  | d :: t => if c = d then some t else none
  | [] => none

def afterDate? (t : Text) : Option Text := do
  let (year, t) ← readFixed? 4 t
  let t ← afterChar? '-' t
  let (month, t) ← readFixed? 2 t
  let t ← afterChar? '-' t
  let (day, t) ← readFixed? 2 t
  if (Date.ofParts? year month day).isSome then some t else none

/-- The digits of a second after its point are left out. -/
def afterFraction? : Text → Option Text
  | '.' :: t => if (t.takeWhile Char.isDigit).isEmpty then none else some (t.dropWhile Char.isDigit)
  | t => some t

def afterTime? (t : Text) : Option Text := do
  let (_, t) ← readUpTo? 23 t
  let t ← afterChar? ':' t
  let (_, t) ← readUpTo? 59 t
  let t ← afterChar? ':' t
  let (_, t) ← readUpTo? 60 t
  afterFraction? t

def afterOffset? : Text → Option Text
  | [] => some []
  | c :: t =>
    if c = 'Z' ∨ c = 'z' then some t
    else if c = '+' ∨ c = '-' then do
      let (_, t) ← readUpTo? 23 t
      let t ← afterChar? ':' t
      let (_, t) ← readUpTo? 59 t
      return t
    else some (c :: t)

/-- What follows a date with an optional time and offset at the head of the text. A time
after a blank need not follow. -/
def afterDateTime? (t : Text) : Option Text :=
  (afterDate? t).bind fun t =>
    match t with
    | c :: rest =>
      if c = 'T' ∨ c = 't' then (afterTime? rest).bind afterOffset?
      else if c = ' ' then
        match afterTime? rest with
        | some rest => afterOffset? rest
        | none => some t
      else some t
    | [] => some []

/-- Whether the text starts with digits and then `mark`, as dates and times do. -/
def startsTemporal (count : Nat) (mark : Char) (t : Text) : Bool :=
  (t.take count).length == count && (t.take count).all Char.isDigit && (t.drop count).head? == some mark

def temporal (t rest : Text) : Json :=
  .record [("datetime", .string (t.take (t.length - rest.length)))]

/-- The number, date or time at the head of the text. -/
def readNumeric? (t : Text) : Option (Json × Text) :=
  if startsTemporal 4 '-' t then (afterDateTime? t).map fun rest => (temporal t rest, rest)
  else if startsTemporal 2 ':' t then (afterTime? t).map fun rest => (temporal t rest, rest)
  else readNumber? t

/-! ## Values and statements -/

def readScalar? (t : Text) : Option (Json × Text) :=
  match t with
  | 't' :: _ => (Json.afterWord? "true" t).map (.bool true, ·)
  | 'f' :: _ => (Json.afterWord? "false" t).map (.bool false, ·)
  | c :: _ =>
    if c = '"' ∨ c = '\'' then (readString? t).map fun (s, rest) => (.string s, rest)
    else readNumeric? t
  | [] => none

mutual

/-- The value at the head of the text, in fewer than `depth` levels. Each of the readers
takes at most `steps` steps. -/
def readValue? (steps depth : Nat) (t : Text) : Option (Json × Text) :=
  match steps, depth, t with
  | steps + 1, depth + 2, '[' :: t =>
    (readItems? steps (depth + 1) t).map fun (items, rest) => (.array items, rest)
  | steps + 1, depth + 2, '\x7b' :: t =>
    match skipBlanks t with
    | '\x7d' :: rest => some (.object [], rest)
    | t =>
      (readPairs? steps (depth + 1) t).bind fun (pairs, rest) => (inlineTable? pairs).map (·, rest)
  | _ + 1, _, t => readScalar? t
  | 0, _, _ => none

/-- The items up to the end of an array, with a comma after each but the last. -/
def readItems? (steps depth : Nat) (t : Text) : Option (List Json × Text) :=
  match steps with
  | 0 => none
  | steps + 1 =>
    match skipLines (t.length + 1) t with
    | ']' :: rest => some ([], rest)
    | t =>
      match readValue? steps depth t with
      | some (v, rest) =>
        match skipLines (rest.length + 1) rest with
        | ']' :: rest => some ([v], rest)
        | ',' :: rest => (readItems? steps depth rest).map fun (items, rest) => (v :: items, rest)
        | _ => none
      | none => none

/-- The pairs up to the end of an inline table, of which there has to be one. -/
def readPairs? (steps depth : Nat) (t : Text) : Option (List (Key × Json) × Text) :=
  match steps with
  | 0 => none
  | steps + 1 =>
    match readKey? t with
    | some (key, '=' :: rest) =>
      match readValue? steps depth (skipBlanks rest) with
      | some (v, rest) =>
        match skipBlanks rest with
        | '\x7d' :: rest => some ([(key, v)], rest)
        | ',' :: rest =>
          (readPairs? steps depth rest).map fun (pairs, rest) => ((key, v) :: pairs, rest)
        | _ => none
      | none => none
    | _ => none

end

/-- The statement at the head of the text and the lines after its own. -/
def readStatement? (t : Text) : Option (Statement × Text) :=
  match t with
  | '[' :: '[' :: t =>
    match readKey? t with
    | some (key, ']' :: ']' :: rest) => (afterLine? rest).map (.element key, ·)
    | _ => none
  | '[' :: t =>
    match readKey? t with
    | some (key, ']' :: rest) => (afterLine? rest).map (.table key, ·)
    | _ => none
  | t =>
    match readKey? t with
    | some (key, '=' :: rest) =>
      (readValue? (2 * rest.length + 2) maxDepth (skipBlanks rest)).bind fun (v, rest) =>
        (afterLine? rest).map (.pair key v, ·)
    | _ => none

def readStatements? : (steps : Nat) → Text → Option (List Statement)
  | 0, _ => none
  | steps + 1, t =>
    match skipLines (t.length + 1) t with
    | [] => some []
    | t =>
      (readStatement? t).bind fun (statement, rest) =>
        (readStatements? steps rest).map (statement :: ·)

/-- The document that a text writes; a byte order mark at its start does not count. -/
def ofText? (t : Text) : Option Json :=
  let t := if t.head? = some '\uFEFF' then t.drop 1 else t
  (readStatements? (t.length + 1) t).bind build?

end Toml

end HashtagSearch
