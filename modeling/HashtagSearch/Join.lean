import HashtagSearch.Text.WordChar

/-!
# Joins between conditions

Conditions are joined by the keywords `#and` and `#or`, in any case. A keyword counts
at the start of the text or after a blank, and only if no word character follows it,
so that `#order` is no join. `Joined` is a nonempty sequence with a join between
neighbours; `Joined.ofText` cuts a text at its keywords.
-/

namespace HashtagSearch

inductive Join
  | and
  | or
  deriving DecidableEq, Repr

namespace Join

def keyword : Join → String
  | and => "and"
  | or => "or"

def name : Join → String
  | and => "AND"
  | or => "OR"

/-- The join that a word spells in any case. -/
def ofKeyword? (word : Text) : Option Join :=
  if Text.sameIgnoringCase word and.keyword.toList then some and
  else if Text.sameIgnoringCase word or.keyword.toList then some or
  else none

/-- What follows the keyword of this join at the head of the text. -/
def afterKeyword? (join : Join) (t : Text) : Option Text :=
  match Text.dropWord? ('#' :: join.keyword.toList) t with
  | some rest => if Text.startsWithWordChar rest then none else some rest
  | none => none

/-- The join written at the head of the text, and what follows it. -/
def read? (t : Text) : Option (Join × Text) :=
  match and.afterKeyword? t with
  | some rest => some (and, rest)
  | none => (or.afterKeyword? t).map (or, ·)

theorem length_afterKeyword? {join : Join} {t rest : Text}
    (h : join.afterKeyword? t = some rest) : rest.length < t.length := by
  unfold afterKeyword? at h
  split at h
  · next rest' h' =>
    split at h
    · cases h
    · cases h
      have := Text.length_dropWord? h'
      simp only [List.length_cons] at this
      omega
  · cases h

theorem length_read? {t : Text} {join : Join} {rest : Text} (h : read? t = some (join, rest)) :
    rest.length < t.length := by
  unfold read? at h
  split at h
  · next h' => cases h; exact length_afterKeyword? h'
  · obtain ⟨r, hr, he⟩ := Option.map_eq_some_iff.1 h
    cases he
    exact length_afterKeyword? hr

end Join

/-- A first item, and further ones each with the join in front of it. -/
structure Joined (α : Type) where
  head : α
  tail : List (Join × α)
  deriving DecidableEq, Repr

namespace Joined

variable {α β : Type}

def items (s : Joined α) : List α := s.head :: s.tail.map (·.2)

def joins (s : Joined α) : List Join := s.tail.map (·.1)

def cons (a : α) (join : Join) (s : Joined α) : Joined α := ⟨a, (join, s.head) :: s.tail⟩

@[simp] theorem items_cons (a : α) (join : Join) (s : Joined α) :
    (s.cons a join).items = a :: s.items := rfl

theorem length_joins (s : Joined α) : s.joins.length + 1 = s.items.length := by
  simp [joins, items]

def map (f : α → β) (s : Joined α) : Joined β := ⟨f s.head, s.tail.map fun (j, a) => (j, f a)⟩

/-- The items that `f` keeps. An item that is dropped takes the join in front of it
along, and so does the first that is kept. -/
def filterMap (f : α → Option β) (s : Joined α) : Option (Joined β) :=
  let kept := s.tail.filterMap fun (j, a) => (f a).map (j, ·)
  match f s.head, kept with
  | some b, kept => some ⟨b, kept⟩
  | none, (_, b) :: kept => some ⟨b, kept⟩
  | none, [] => none

def last (s : Joined α) : α := s.items.getLast (by simp [items])

/-- The sequence with one more character at the start of its first text. -/
def prependChar (c : Char) (s : Joined Text) : Joined Text := ⟨c :: s.head, s.tail⟩

/-- The keyword behind a blank at the head of the text, and what follows it. -/
def readJoin? : Text → Option (Join × Text)
  | [] => none
  | c :: t => if Text.isBlank c then Join.read? t else none

theorem length_readJoin? {t : Text} {join : Join} {rest : Text}
    (h : readJoin? t = some (join, rest)) : rest.length < t.length := by
  cases t with
  | nil => cases h
  | cons c t =>
    simp only [readJoin?] at h
    split at h
    · exact Nat.lt_succ_of_lt (Join.length_read? h)
    · cases h

/-- Cuts a text in front of which something stands at the keywords that follow a blank;
the blank belongs to neither side. -/
def ofTextAfter (t : Text) : Joined Text :=
  match _h : readJoin? t with
  | some (join, rest) => (ofTextAfter rest).cons [] join
  | none =>
    match t with
    | [] => ⟨[], []⟩
    | c :: t => (ofTextAfter t).prependChar c
termination_by t.length
decreasing_by
  · exact length_readJoin? _h
  · simp

/-- Cuts a text at its join keywords. -/
def ofText (t : Text) : Joined Text :=
  match Join.read? t with
  | some (join, rest) => (ofTextAfter rest).cons [] join
  | none => ofTextAfter t

end Joined

/-- The number of join keywords of a text. -/
def countJoins (t : Text) : Nat := (Joined.ofText t).tail.length

end HashtagSearch
