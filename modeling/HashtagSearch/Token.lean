import HashtagSearch.Join

/-!
# Tokens of grouped searches

A grouped search is read as tokens: the marks `#(`, `#)` and `##`, words with a `#`
in front, and the values between them. A `#` that starts neither a mark nor a word
belongs to a value. `Token.display` writes a token as it is typed; positions are
counted in bytes of UTF-8.
-/

namespace HashtagSearch

inductive Token
  | groupOpen
  | groupClose
  | confirm
  | hashtag (name : Text)
  | value (text : Text)
  deriving DecidableEq, Repr

structure PlacedToken where
  token : Token
  position : Nat
  deriving DecidableEq, Repr

namespace Token

/-- The token as it is typed. -/
def display : Token → Text
  | groupOpen => ['#', '(']
  | groupClose => ['#', ')']
  | confirm => ['#', '#']
  | hashtag name => '#' :: name
  | value text => text

def join? : Token → Option Join
  | hashtag name => Join.ofKeyword? name
  | _ => none

/-- Whether the token is `#to`, which separates the two ends of a range. -/
def isRangeMarker : Token → Bool
  | hashtag name => Text.sameIgnoringCase name "to".toList
  | _ => false

def isNameChar (c : Char) : Bool := !Text.isBlank c && c != '#'

/-- The mark or word at the head of the text, and what follows it. -/
def read? : Text → Option (Token × Text)
  | '#' :: '#' :: rest => some (confirm, rest)
  | '#' :: '(' :: rest => some (groupOpen, rest)
  | '#' :: ')' :: rest => some (groupClose, rest)
  | '#' :: rest =>
    if (rest.takeWhile isNameChar).isEmpty then none
    else some (hashtag (rest.takeWhile isNameChar), rest.dropWhile isNameChar)
  | _ => none

theorem length_read? {t : Text} {token : Token} {rest : Text} (h : read? t = some (token, rest)) :
    rest.length < t.length := by
  unfold read? at h
  split at h
  · cases h; simp only [List.length_cons]; omega
  · cases h; simp only [List.length_cons]; omega
  · cases h; simp only [List.length_cons]; omega
  · next rest' _ _ _ =>
    split at h
    · cases h
    · cases h
      have := (List.dropWhile_suffix (l := rest') isNameChar).length_le
      simp only [List.length_cons]
      omega
  · cases h

/-- The text up to the first mark or word, and the rest from there on. -/
def spanValue : Text → Text × Text
  | [] => ([], [])
  | c :: t =>
    if (read? (c :: t)).isSome then ([], c :: t)
    else ((c :: (spanValue t).1), (spanValue t).2)

theorem spanValue_append (t : Text) : (spanValue t).1 ++ (spanValue t).2 = t := by
  induction t with
  | nil => rfl
  | cons c t ih =>
    unfold spanValue
    split
    · rfl
    · simp [ih]

theorem length_spanValue_le (t : Text) : (spanValue t).2.length ≤ t.length := by
  have := congrArg List.length (spanValue_append t)
  simp only [List.length_append] at this
  omega

/-- The value written as `raw` from byte `position` on, unless it is blank. -/
def placeValue (position : Nat) (raw : Text) : List PlacedToken :=
  if (Text.trim raw).isEmpty then []
  else [⟨value (Text.trim raw), position + Text.byteLength (raw.takeWhile Text.isBlank)⟩]

def scanFrom (position : Nat) (t : Text) : List PlacedToken :=
  match _h : read? t with
  | some (token, rest) =>
    ⟨token, position⟩ :: scanFrom (position + Text.byteLength token.display) rest
  | none =>
    match t with
    | [] => []
    | c :: t =>
      placeValue position (c :: (spanValue t).1) ++
        scanFrom (position + Text.byteLength (c :: (spanValue t).1)) (spanValue t).2
termination_by t.length
decreasing_by
  · exact length_read? _h
  · have := length_spanValue_le t
    simp only [List.length_cons]
    omega

def scan (t : Text) : List PlacedToken := scanFrom 0 t

/-- The tokens of a text. -/
def ofText (t : Text) : List Token := (scan t).map (·.token)

end Token

end HashtagSearch
