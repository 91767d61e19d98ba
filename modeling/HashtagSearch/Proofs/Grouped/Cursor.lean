import HashtagSearch.Proofs.Grouped.Reading

/-!
# Reading tokens by position

Tokens can be read by moving a position along their list. A reader that fails leaves the
position where it noticed, so what a failure leaves is part of what a reader does. Such a
position never goes back and never passes the end, and what is read from a position on is
what `condition?` reads of the tokens that are left there.
-/

namespace HashtagSearch

namespace Grouped

variable {α β : Type} {catalog : Catalog} {ts : List Token}

/-! ## Readers that move a position -/

/-- What a reader returns, and the position that it leaves. -/
abbrev Reader := OptionT (StateM Nat)

theorem bind_apply (x : Reader α) (g : α → Reader β) (p : Nat) :
    (x >>= g) p =
      match x p with
      | (some a, q) => g a q
      | (none, q) => (none, q) := by
  cases h : x p with
  | mk a q =>
    cases a with
    | none =>
      simp only [Bind.bind, OptionT.bind, OptionT.mk, StateT.bind, h]
      rfl
    | some a => simp [Bind.bind, OptionT.bind, OptionT.mk, StateT.bind, h]

/-- The token at the position as `read` takes it. A token is passed even if `read` refuses
it; at the end the position stays. -/
def next (ts : List Token) (read : Token → Option α) : Reader α := fun p =>
  match ts[p]? with
  | some t => (read t, p + 1)
  | none => (none, p)

/-- Whether the token at the position is `#to`, without passing it. -/
def atMark (ts : List Token) : Reader Bool := fun p => (some (ts[p]?.any Token.isRangeMarker), p)

def made (a : Option α) : Reader α := fun p => (a, p)

/-- The column that a token names. A join is not the name of a column. -/
def columnNamed? (catalog : Catalog) : Token → Option Column
  | .hashtag name => if (Join.ofKeyword? name).isSome then none else catalog.resolve? name
  | _ => none

def operatorNamed? (column : Column) : Token → Option Operator
  | .hashtag name => Operator.resolve? column.valueType name
  | _ => none

def value? : Token → Option Text
  | .value text => some text
  | _ => none

def valueTo (ts : List Token) : Reader (Option Text) := do
  if ← atMark ts then
    let _ ← next ts some
    next ts fun t => (value? t).map some
  else
    pure none

/-- The condition at the position, read token after token. -/
def conditionAt (catalog : Catalog) (ts : List Token) : Reader Condition := do
  let column ← next ts (columnNamed? catalog)
  let operator ← next ts (operatorNamed? column)
  let value ← next ts value?
  let valueTo ← valueTo ts
  made (ofValues? column operator value valueTo)

/-! ## What a position stands for -/

theorem drop_of_getElem? {p : Nat} {t : Token} (h : ts[p]? = some t) :
    ts.drop p = t :: ts.drop (p + 1) := by
  obtain ⟨hp, rfl⟩ := List.getElem?_eq_some_iff.1 h
  exact List.drop_eq_getElem_cons hp

/-- From every position on the reader returns what `f` returns of the tokens left there, and
its new position is where `f` leaves the rest. -/
structure Follows (ts : List Token) (x : Reader α) (f : List Token → Option (α × List Token)) :
    Prop where
  forward : ∀ p, p ≤ (x p).2
  within : ∀ p, p ≤ ts.length → (x p).2 ≤ ts.length
  agrees : ∀ p, (x p).1.map (·, ts.drop (x p).2) = f (ts.drop p)

def first? (read : Token → Option α) : List Token → Option (α × List Token)
  | t :: rest => (read t).map (·, rest)
  | [] => none

theorem follows_next (read : Token → Option α) : Follows ts (next ts read) (first? read) where
  forward p := by
    unfold next
    split <;> simp
  within p hp := by
    unfold next
    split
    · next h => exact (List.getElem?_eq_some_iff.1 h).1
    · exact hp
  agrees p := by
    unfold next
    split
    · next h => rw [drop_of_getElem? h, first?]
    · next h =>
      rw [List.drop_of_length_le (List.getElem?_eq_none_iff.1 h)]
      rfl

theorem follows_atMark :
    Follows ts (atMark ts) fun rest => some (rest.head?.any Token.isRangeMarker, rest) where
  forward _ := Nat.le_refl _
  within _ hp := hp
  agrees p := by simp [atMark]

theorem follows_made (a : Option α) : Follows ts (made a) fun rest => a.map (·, rest) where
  forward _ := Nat.le_refl _
  within _ hp := hp
  agrees _ := rfl

namespace Follows

variable {x : Reader α} {f : List Token → Option (α × List Token)}

theorem pure (a : α) : Follows ts (Pure.pure a) fun rest => some (a, rest) :=
  follows_made (some a)

/-- One reader after another: the second begins where the first stopped, and where the first
fails it does not begin. -/
theorem bind {g : α → Reader β} {h : α → List Token → Option (β × List Token)}
    (hx : Follows ts x f) (hg : ∀ a, Follows ts (g a) (h a)) :
    Follows ts (x >>= g) fun ts => (f ts).bind fun (a, rest) => h a rest where
  forward p := by
    have forward := hx.forward p
    rw [bind_apply]
    split
    · next a q hq =>
      rw [hq] at forward
      exact Nat.le_trans forward ((hg a).forward q)
    · next q hq => simpa only [hq] using forward
  within p hp := by
    have within := hx.within p hp
    rw [bind_apply]
    split
    · next a q hq =>
      rw [hq] at within
      exact (hg a).within q within
    · next q hq => simpa only [hq] using within
  agrees p := by
    rw [← hx.agrees p, bind_apply]
    split
    · next a q hq => simpa only [hq, Option.map_some, Option.bind_some] using (hg a).agrees q
    · next q hq => simp [hq]

end Follows

/-! ## Conditions -/

def bare {p : List Token → Prop} (result : Option (α × { rest // p rest })) :
    Option (α × List Token) :=
  result.map fun (a, rest) => (a, rest.1)

def conditionOf (catalog : Catalog) (ts : List Token) : Option (Condition × List Token) :=
  bare (condition? catalog ts)

/-- The second value, if `#to` is known to be next or not to be. -/
def afterMark? (isMark : Bool) (ts : List Token) : Option (Option Text × List Token) :=
  if isMark then
    (first? some ts).bind fun (_, rest) => first? (fun t => (value? t).map some) rest
  else
    some (none, ts)

theorem follows_valueTo : Follows ts (valueTo ts) fun rest =>
    afterMark? (rest.head?.any Token.isRangeMarker) rest := by
  refine follows_atMark.bind (h := afterMark?) fun isMark => ?_
  cases isMark with
  | true => exact (follows_next some).bind fun _ => follows_next _
  | false => exact Follows.pure none

theorem ofNames?_eq_bind (column operator value : Text) (valueTo : Option Text) :
    ofNames? catalog column operator value valueTo =
      (columnNamed? catalog (.hashtag column)).bind fun k =>
        (operatorNamed? k (.hashtag operator)).bind fun o => ofValues? k o value valueTo := by
  unfold ofNames?
  split
  · next h => simp [columnNamed?, h]
  · next h =>
    simp only [columnNamed?, if_neg h, operatorNamed?, Condition.resolve?, Option.bind_assoc,
      Option.bind_map, Function.comp_def]

/-- The tokens of a condition, read from the head of the list one after another. -/
def tokenwise? (catalog : Catalog) (ts : List Token) : Option (Condition × List Token) :=
  (first? (columnNamed? catalog) ts).bind fun (column, rest) =>
    (first? (operatorNamed? column) rest).bind fun (operator, rest) =>
      (first? value? rest).bind fun (value, rest) =>
        (afterMark? (rest.head?.any Token.isRangeMarker) rest).bind fun (valueTo, rest) =>
          (ofValues? column operator value valueTo).map (·, rest)

theorem tokenwise?_cons (column operator value : Text) (rest : List Token) :
    tokenwise? catalog (.hashtag column :: .hashtag operator :: .value value :: rest) =
      (afterMark? (rest.head?.any Token.isRangeMarker) rest).bind fun (valueTo, rest) =>
        (ofNames? catalog column operator value valueTo).map (·, rest) := by
  cases h : afterMark? (rest.head?.any Token.isRangeMarker) rest <;>
    simp only [tokenwise?, first?, value?, ofNames?_eq_bind, h, Option.map_some, Option.map_bind,
      Option.bind_some, Option.bind_none, Option.bind_fun_none, Option.bind_map, Function.comp_def]

theorem first?_eq_some {read : Token → Option α} {rest : List Token} {a : α}
    (h : first? read ts = some (a, rest)) : ∃ t, ts = t :: rest ∧ read t = some a := by
  cases ts with
  | nil => cases h
  | cons t ts =>
    obtain ⟨a', ha, he⟩ := Option.map_eq_some_iff.1 h
    cases he
    exact ⟨t, rfl, ha⟩

theorem tokenwise?_shape {result : Condition × List Token}
    (h : tokenwise? catalog ts = some result) : ∃ column operator value rest,
      ts = .hashtag column :: .hashtag operator :: .value value :: rest := by
  obtain ⟨⟨column, ts₁⟩, h₁, h⟩ := Option.bind_eq_some_iff.1 h
  obtain ⟨⟨operator, ts₂⟩, h₂, h⟩ := Option.bind_eq_some_iff.1 h
  obtain ⟨⟨value, ts₃⟩, h₃, -⟩ := Option.bind_eq_some_iff.1 h
  obtain ⟨t₁, rfl, h₁⟩ := first?_eq_some h₁
  obtain ⟨t₂, rfl, h₂⟩ := first?_eq_some h₂
  obtain ⟨t₃, rfl, h₃⟩ := first?_eq_some h₃
  match t₁, t₂, t₃, h₁, h₂, h₃ with
  | .hashtag _, .hashtag _, .value _, _, _, _ => exact ⟨_, _, _, _, rfl⟩

theorem tokenwise?_eq (ts : List Token) : tokenwise? catalog ts = conditionOf catalog ts := by
  unfold conditionOf condition?
  split
  · next column operator value rest =>
    rw [tokenwise?_cons]
    split
    · next name rest =>
      split
      · next hm =>
        split
        · next high rest => simp [afterMark?, first?, value?, bare, hm, Function.comp_def]
        · next hn =>
          match rest, hn with
          | [], _ => simp [afterMark?, first?, bare, hm]
          | t :: rest, hn => cases t <;> simp_all [afterMark?, first?, value?, bare]
      · next hm => simp [afterMark?, bare, hm, Function.comp_def]
    · next hn =>
      match rest, hn with
      | [], _ => simp [afterMark?, bare, Function.comp_def]
      | t :: rest, hn =>
        cases t <;> simp_all [afterMark?, Token.isRangeMarker, bare, Function.comp_def]
  · next hn =>
    refine Option.eq_none_iff_forall_ne_some.2 fun result h => ?_
    obtain ⟨_, _, _, _, rfl⟩ := tokenwise?_shape h
    exact hn _ _ _ _ rfl

/-- Moving a position token after token, `conditionAt` reads what `condition?` reads. -/
theorem follows_conditionAt (catalog : Catalog) (ts : List Token) :
    Follows ts (conditionAt catalog ts) (conditionOf catalog) := by
  have h : Follows ts (conditionAt catalog ts) (tokenwise? catalog) :=
    (follows_next _).bind fun column =>
      (follows_next _).bind fun operator =>
        (follows_next value?).bind fun value =>
          follows_valueTo.bind fun valueTo => follows_made (ofValues? column operator value valueTo)
  rwa [funext tokenwise?_eq] at h

theorem lt_of_conditionAt {p : Nat} {c : Condition} (h : (conditionAt catalog ts p).1 = some c) :
    p < (conditionAt catalog ts p).2 := by
  have hc := (follows_conditionAt catalog ts).agrees p
  rw [h] at hc
  obtain ⟨⟨c', rest, hl⟩, -, he⟩ := Option.map_eq_some_iff.1 hc.symm
  simp only [Prod.mk.injEq] at he
  rw [he.2, List.length_drop, List.length_drop] at hl
  omega

end Grouped

end HashtagSearch
