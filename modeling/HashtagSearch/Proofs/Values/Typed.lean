import HashtagSearch.Proofs.Finished
import HashtagSearch.Proofs.Values.Ends

/-!
# Conditions that were typed

What every condition of a search satisfies, and where those that come from a segment have
their values from: a trimmed part of the text without tags, taken as it stands or cut into
the ends of a range.
-/

namespace HashtagSearch

open Text

/-- A value is not empty and has no blanks at its ends. -/
def Text.Filled (t : Text) : Prop := t ≠ [] ∧ trim t = t

theorem Text.filled_trim {t : Text} (h : trim t ≠ []) : Filled (trim t) := ⟨h, trim_trim t⟩

/-! ## Parts of a text -/

namespace Confirmation

theorem strip_isInfix (t : Text) : strip t <:+: t :=
  (strip_isPrefix t).isInfix.trans (trim_isInfix t)

end Confirmation

theorem Segment.infix_of_value? {t v : Text} (h : (ofText t).value? = some v) : v <:+: t := by
  obtain ⟨front, -, rfl, -, -⟩ := exists_front h
  exact (List.suffix_append front v).isInfix

theorem Segment.infix_of_value?_trim {t v : Text} (h : (ofText (trim t)).value? = some v) :
    v <:+: t :=
  (infix_of_value? h).trans (trim_isInfix t)

namespace Condition

variable {catalog : Catalog} {defaultColumn : Option Column} {column : Column}
  {operator : Operator} {t v : Text} {c : Condition}

/-- What holds of every condition of a search: the column is known and takes the operator,
the values are there, and only a range has a second one. -/
structure WellFormed (catalog : Catalog) (defaultColumn : Option Column) (c : Condition) :
    Prop where
  column_known : c.column ∈ catalog ∨ defaultColumn = some c.column
  field_eq : c.field = c.column.field
  supported : c.operator.supports c.column.valueType = true
  value_filled : Filled c.value
  valueTo_filled : ∀ high ∈ c.valueTo, c.operator = .inRange ∧ Filled high

theorem WellFormed.with_default (h : c.WellFormed catalog none) (defaultColumn : Option Column) :
    c.WellFormed catalog defaultColumn :=
  { h with column_known := .inl (h.column_known.resolve_right nofun) }

/-- The ways in which the values of a condition are read from a text. -/
inductive Read (column : Column) (operator : Operator) (v : Text) : Condition → Prop
  | whole : v ≠ [] → Read column operator v (.on column operator v)
  | range {r : ValueRange} {confirmed : Bool} : operator = .inRange →
      ValueRange.read? v confirmed = some r →
      Read column operator v (.on column operator r.low (some r.high))
  /-- only the low end and the mark behind it have been typed -/
  | opened {low : Text} : operator = .inRange → ValueRange.openEnd? v = some low →
      Read column operator v (.on column operator low)

/-- A condition on a known column of which the values are read from a part of `t`. -/
structure Typed (catalog : Catalog) (defaultColumn : Option Column) (t : Text) (c : Condition) :
    Prop where
  column_known : c.column ∈ catalog ∨ defaultColumn = some c.column
  supported : c.operator.supports c.column.valueType = true
  exists_value : ∃ v, v <:+: t ∧ trim v = v ∧
    Confirmation.holdsTag v c.operator.isRange = false ∧ Read c.column c.operator v c

theorem Read.wellFormed (h : Read column operator v c) (hv : trim v = v)
    (hk : column ∈ catalog ∨ defaultColumn = some column)
    (hs : operator.supports column.valueType = true) : c.WellFormed catalog defaultColumn := by
  cases h with
  | whole hne => exact ⟨hk, rfl, hs, ⟨hne, hv⟩, nofun⟩
  | range ho hr =>
    obtain ⟨low, high, -, rfl⟩ := ValueRange.exists_cut hr
    obtain ⟨hlow, hhigh⟩ := ValueRange.ends_ne_nil hr
    refine ⟨hk, rfl, hs, filled_trim hlow, ?_⟩
    rintro _ ⟨⟩
    exact ⟨ho, filled_trim hhigh⟩
  | opened ho hr =>
    obtain ⟨before, m, -, rfl⟩ := ValueRange.openEnd?_eq_some hr
    exact ⟨hk, rfl, hs, filled_trim (ValueRange.openEnd_ne_nil hr), nofun⟩

theorem Typed.wellFormed (h : c.Typed catalog defaultColumn t) :
    c.WellFormed catalog defaultColumn := by
  obtain ⟨v, -, hv, -, hr⟩ := h.exists_value
  exact hr.wellFormed hv h.column_known h.supported

theorem Read.column_eq (h : Read column operator v c) :
    c.column = column ∧ c.operator = operator := by
  cases h <;> exact ⟨rfl, rfl⟩

theorem Read.typed (h : Read column operator v c) (ht : v <:+: t) (hv : trim v = v)
    (htag : Confirmation.holdsTag v operator.isRange = false)
    (hk : column ∈ catalog ∨ defaultColumn = some column)
    (hs : operator.supports column.valueType = true) : c.Typed catalog defaultColumn t := by
  obtain ⟨rfl, rfl⟩ := h.column_eq
  exact ⟨hk, hs, v, ht, hv, htag, h⟩

theorem Typed.mono {t' : Text} {defaultColumn' : Option Column}
    (h : c.Typed catalog defaultColumn t) (ht : t <:+: t')
    (hd : ∀ k, defaultColumn = some k → k ∈ catalog ∨ defaultColumn' = some k) :
    c.Typed catalog defaultColumn' t' := by
  obtain ⟨hk, hs, v, hv, hrest⟩ := h
  refine ⟨?_, hs, v, hv.trans ht, hrest⟩
  rcases hk with hk | hk
  · exact .inl hk
  · exact hd _ hk

theorem Typed.of_part {t' : Text} (h : c.Typed catalog none t) (ht : t <:+: t') :
    c.Typed catalog none t' :=
  h.mono ht (by simp)

/-! ## Reading -/

theorem read_of_ofTrimmed? (h : ofTrimmed? column operator v = some c) :
    Confirmation.holdsTag v operator.isRange = false ∧ Read column operator v c := by
  unfold ofTrimmed? at h
  split at h
  · cases h
  · next hv =>
    simp only [Bool.or_eq_true, List.isEmpty_iff, not_or, Bool.not_eq_true] at hv
    obtain ⟨hne, htag⟩ := hv
    refine ⟨htag, ?_⟩
    split at h
    · next ho =>
      split at h
      · next r hr =>
        cases h
        exact .range (Operator.isRange_iff.1 ho) hr
      · cases h
        exact .whole hne
    · cases h
      exact .whole hne

theorem typed_of_ofText? (h : ofText? defaultColumn catalog t = some c) :
    c.Typed catalog defaultColumn t := by
  have hvalue {value : Text} (hs : (Segment.ofText (Confirmation.strip t)).value? = some value)
      {k : Column} {o : Operator} (hr : ofValue? k o value = some c)
      (hk : k ∈ catalog ∨ defaultColumn = some k) (ho : o.supports k.valueType = true) :
      c.Typed catalog defaultColumn t := by
    obtain ⟨htag, hread⟩ := read_of_ofTrimmed? hr
    have hpart : trim value <:+: t :=
      (trim_isInfix value).trans ((Segment.infix_of_value? hs).trans (Confirmation.strip_isInfix t))
    exact hread.typed hpart (trim_trim value) htag hk ho
  unfold ofText? at h
  split at h
  · next name operatorName value hs =>
    obtain ⟨⟨k, o⟩, hr, h⟩ := Option.bind_eq_some_iff.1 h
    obtain ⟨hk, ho⟩ := known_of_resolve? hr
    exact hvalue (by rw [hs]; rfl) h (.inl hk) ho
  · next operatorName value hs =>
    obtain ⟨k, hk, h⟩ := Option.bind_eq_some_iff.1 h
    obtain ⟨o, ho, h⟩ := Option.bind_eq_some_iff.1 h
    exact hvalue (by rw [hs]; rfl) h (.inr hk) (Operator.supports_of_resolve? ho)
  · cases h

end Condition

end HashtagSearch
