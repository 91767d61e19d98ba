/-!
# Text as a list of characters

Everything a user types and every cell that is compared with it is a list of
characters, so each rule on text is a structural recursion. Blanks are the
characters with the Unicode property `White_Space`. Trimming, words, endings and
the comparison of keywords without regard to case are defined here.
-/

namespace HashtagSearch

/-- A text is the list of its characters; positions and widths count characters. -/
abbrev Text := List Char

namespace Text

/-- The characters with the property `White_Space`. -/
def isBlank (c : Char) : Bool :=
  let n := c.toNat
  (9 ≤ n && n ≤ 13) || n == 0x20 || n == 0x85 || n == 0xA0 || n == 0x1680 ||
    (0x2000 ≤ n && n ≤ 0x200A) || n == 0x2028 || n == 0x2029 || n == 0x202F || n == 0x205F ||
    n == 0x3000

def trimStart (t : Text) : Text := t.dropWhile isBlank

def trimEnd (t : Text) : Text := (t.reverse.dropWhile isBlank).reverse

def trim (t : Text) : Text := trimEnd (trimStart t)

/-- What stands before `ending`, when the text ends so. -/
def dropEnding? (ending t : Text) : Option Text :=
  if ending.isSuffixOf t then some (t.take (t.length - ending.length)) else none

/-- The longest runs without blanks, in order. -/
def words : Text → List Text
  | [] => []
  | c :: t =>
    if isBlank c then words t
    else
      match t.head?, words t with
      | some d, w :: ws => if isBlank d then [c] :: w :: ws else (c :: w) :: ws
      | _, ws => [c] :: ws

/-- The letters `A` to `Z` count as their small letters; nothing else is folded. -/
def sameIgnoringCase (s t : Text) : Bool := s.map Char.toLower == t.map Char.toLower

/-- What follows `word` at the head of the text, the case of its letters ignored. -/
def dropWord? : (word : Text) → Text → Option Text
  | [], t => some t
  | _ :: _, [] => none
  | w :: word, c :: t => if w.toLower = c.toLower then dropWord? word t else none

theorem length_dropWord? {word t rest : Text} (h : dropWord? word t = some rest) :
    rest.length + word.length = t.length := by
  induction word generalizing t with
  | nil => simp_all [dropWord?]
  | cons w word ih =>
    cases t with
    | nil => simp [dropWord?] at h
    | cons c t =>
      simp only [dropWord?] at h
      split at h
      · have := ih h
        simp only [List.length_cons]
        omega
      · simp at h

/-- Whether `part` occurs somewhere in the text. -/
def hasPart (part : Text) : Text → Bool
  | [] => part.isEmpty
  | c :: t => part.isPrefixOf (c :: t) || hasPart part t

/-- `replace` for a part that has characters, after the first characters of a text have been passed
over. -/
def replaceFrom (part new : Text) : (passed : Nat) → Text → Text
  | _, [] => []
  | passed + 1, _ :: t => replaceFrom part new passed t
  | 0, c :: t =>
    if part.isPrefixOf (c :: t) then new ++ replaceFrom part new (part.length - 1) t
    else c :: replaceFrom part new 0 t

/-- The text with `new` for each occurrence of `part`, from the left and without overlaps. The
empty text occurs around every character. -/
def replace (part new t : Text) : Text :=
  if part.isEmpty then new ++ t.flatMap (· :: new) else replaceFrom part new 0 t

example : replace "aa".toList "b".toList "aaaca".toList = "baca".toList := by decide

def splitAtChar? (c : Char) : Text → Option (Text × Text)
  | [] => none
  | d :: t => if d = c then some ([], t) else (splitAtChar? c t).map fun (s, r) => (d :: s, r)

def splitAtLast? (c : Char) (t : Text) : Option (Text × Text) :=
  (splitAtChar? c t.reverse).map fun (after, before) => (before.reverse, after.reverse)

def byteLength : Text → Nat
  | [] => 0
  | c :: t => c.utf8Size + byteLength t

@[simp] theorem byteLength_append (s t : Text) :
    byteLength (s ++ t) = byteLength s + byteLength t := by
  induction s with
  | nil => simp [byteLength]
  | cons c s ih => rw [List.cons_append, byteLength, byteLength, ih, Nat.add_assoc]

theorem byteLength_pos {t : Text} (h : t ≠ []) : 0 < byteLength t := by
  cases t with
  | nil => exact absurd rfl h
  | cons c t => exact Nat.add_pos_left c.utf8Size_pos _

/-- The text followed by spaces up to the given width; a longer text is left as it is. -/
def padRight (width : Nat) (t : Text) : Text := t ++ List.replicate (width - t.length) ' '

def ofNat (n : Nat) : Text := Nat.toDigits 10 n

def joinWith (separator : Text) (ts : List Text) : Text := List.intercalate separator ts

end Text

end HashtagSearch
