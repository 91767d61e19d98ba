import HashtagSearch.Filter

/-!
# Searches with groups

The tokens of a confirmed search with parentheses form a sequence: expressions with
the same join between all of them, where an expression is a condition or a sequence in
parentheses. Parentheses nest at most `maxDepth` deep. Each reader returns the tokens
that it leaves, which are fewer than those it was given.
-/

namespace HashtagSearch

namespace Grouped

/-- The tokens that a reader leaves of `ts`. -/
abbrev Shorter (ts : List Token) := { rest : List Token // rest.length < ts.length }

/-- How deep parentheses may nest. -/
def maxDepth : Nat := 64

/-- The value or the two values of a condition: a range needs both ends, other operators
take one value. -/
def ofValues? (column : Column) (operator : Operator) (value : Text) (valueTo : Option Text) :
    Option Condition :=
  match operator.isRange, valueTo with
  | true, some valueTo => some (.on column operator value (some valueTo))
  | true, none =>
    (ValueRange.read? value true).map fun range => .on column operator range.low (some range.high)
  | false, some _ => none
  | false, none => some (.on column operator value)

def ofNames? (catalog : Catalog) (column operator value : Text) (valueTo : Option Text) :
    Option Condition :=
  if (Join.ofKeyword? column).isSome then none
  else (Condition.resolve? catalog column operator).bind fun (c, o) => ofValues? c o value valueTo

/-- The condition at the head of the tokens. -/
def condition? (catalog : Catalog) : (ts : List Token) → Option (Condition × Shorter ts)
  | .hashtag column :: .hashtag operator :: .value value :: ts =>
    match ts with
    | .hashtag name :: rest =>
      if Token.isRangeMarker (.hashtag name) then
        match rest with
        | .value valueTo :: rest =>
          (ofNames? catalog column operator value (some valueTo)).map
            (·, ⟨rest, by simp only [List.length_cons]; omega⟩)
        | _ => none
      else
        (ofNames? catalog column operator value none).map
          (·, ⟨.hashtag name :: rest, by simp only [List.length_cons]; omega⟩)
    | ts =>
      (ofNames? catalog column operator value none).map
        (·, ⟨ts, by simp only [List.length_cons]; omega⟩)
  | _ => none

/-- Expressions that follow each other with one join; a single one has none. -/
structure Sequence where
  nodes : List Expression
  join : Option Join

/-- The group that a sequence in parentheses is. -/
def Sequence.toGroup (s : Sequence) (isExplicit : Bool) : Group :=
  ⟨s.join.getD .and, s.nodes, isExplicit⟩

/-- The sequence with one more node behind a join, unless its nodes have another join. -/
def Sequence.push? (s : Sequence) (join : Join) : Option (Expression → Sequence) :=
  if s.join.all (· == join) then some fun e => ⟨s.nodes ++ [e], some join⟩ else none

mutual

/-- The expression at the head of the tokens, when `levels` more parentheses may be
opened. -/
def expression? (catalog : Catalog) (levels : Nat) (ts : List Token) :
    Option (Expression × Shorter ts) :=
  match ts with
  | .groupOpen :: inner =>
    match levels with
    | 0 => none
    | levels + 1 =>
      match sequence? catalog levels inner with
      | some (s, ⟨.groupClose :: rest, h⟩) =>
        some (.group (s.toGroup true), ⟨rest, by simp only [List.length_cons] at *; omega⟩)
      | _ => none
  | ts => (condition? catalog ts).map fun (c, rest) => (.condition c, rest)
termination_by (ts.length, 0)

/-- The sequence at the head of the tokens. -/
def sequence? (catalog : Catalog) (levels : Nat) (ts : List Token) :
    Option (Sequence × Shorter ts) :=
  match expression? catalog levels ts with
  | some (e, ⟨rest, h⟩) =>
    (continue? catalog levels ⟨[e], none⟩ rest).map fun (s, ⟨rest', h'⟩) =>
      (s, ⟨rest', Nat.lt_of_le_of_lt h' h⟩)
  | none => none
termination_by (ts.length, 2)

/-- The sequence that begins with `s` and goes on with the tokens as far as joins
follow. -/
def continue? (catalog : Catalog) (levels : Nat) (s : Sequence) (ts : List Token) :
    Option (Sequence × { rest : List Token // rest.length ≤ ts.length }) :=
  match ts with
  | [] => some (s, ⟨[], Nat.le_refl _⟩)
  | t :: ts =>
    match t.join? with
    | none => some (s, ⟨t :: ts, Nat.le_refl _⟩)
    | some join =>
      match s.push? join with
      | none => none
      | some push =>
        match expression? catalog levels ts with
        | none => none
        | some (e, ⟨rest, h⟩) =>
          (continue? catalog levels (push e) rest).map fun (s, ⟨rest', h'⟩) =>
            (s, ⟨rest', by simp only [List.length_cons]; omega⟩)
termination_by (ts.length, 1)

end

/-- The root of a search: a sequence that is one group in parentheses is that group. -/
def Sequence.root (s : Sequence) : Group :=
  match s.nodes with
  | [.group g] => g
  | _ => s.toGroup false

/-- The tree that all of the tokens write, with the confirmation at their end. -/
def tree? (catalog : Catalog) (ts : List Token) : Option Group :=
  match sequence? catalog maxDepth ts with
  | some (s, ⟨[.confirm], _⟩) => some s.root
  | _ => none

/-- The filter that a confirmed search with parentheses asks for. -/
def read? (catalog : Catalog) (t : Text) : Option Filter :=
  if Text.hasPart (Token.display .groupOpen) t && Confirmation.isConfirmed t then
    (tree? catalog (Token.ofText (Text.trim t))).bind Filter.ofGroup?
  else none

end Grouped

end HashtagSearch
