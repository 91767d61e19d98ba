import HashtagSearch.Proofs.Finished
import HashtagSearch.Proofs.Ranges

/-!
# Conditions in writing

A condition is written with its field, the name of its operator and its values, each
behind a single space. `Condition.Writable` says which conditions can be read back from
that: the field is a word for the column, and the values are plain texts.
-/

namespace HashtagSearch

open Text

/-- The field of the column is a word that names the column and is no mark or keyword. -/
structure Column.Typeable (catalog : Catalog) (c : Column) : Prop where
  resolve : catalog.resolve? c.field = some c
  is_name : Segment.IsName c.field
  not_group : c.field.head? ≠ some '('
  not_join : countJoins ('#' :: c.field) = 0

instance (catalog : Catalog) (c : Column) : Decidable (c.Typeable catalog) :=
  decidable_of_iff (catalog.resolve? c.field = some c ∧
      (c.field ≠ [] ∧ c.field.all Token.isNameChar = true) ∧
      c.field.head? ≠ some '(' ∧ countJoins ('#' :: c.field) = 0)
    ⟨fun ⟨hr, ⟨hne, hall⟩, hgroup, hjoin⟩ => ⟨hr, ⟨hne, List.all_eq_true.1 hall⟩, hgroup, hjoin⟩,
      fun h => ⟨h.resolve, ⟨h.is_name.1, List.all_eq_true.2 h.is_name.2⟩, h.not_group, h.not_join⟩⟩

namespace Operator

theorem resolve?_name {o : Operator} {t : ValueType} (h : o.supports t = true) :
    resolve? t o.name.toList = some o := by
  revert h
  cases o <;> cases t <;> decide

theorem isName_name (o : Operator) : Segment.IsName o.name.toList := by
  cases o <;> exact ⟨by decide, List.all_eq_true.1 (by decide)⟩

theorem read?_name (o : Operator) : Join.read? ('#' :: o.name.toList) = none := by
  cases o <;> decide

theorem colon_not_mem_name (o : Operator) : ':' ∉ o.name.toList := by
  cases o <;> decide

end Operator

namespace Condition

variable {catalog : Catalog} {c : Condition}

/-- The values of a condition in one text. -/
def operand (c : Condition) : Text :=
  match c.valueTo with
  | some high => ValueRange.display ⟨c.value, high⟩
  | none => c.value

theorem operand_of_none (h : c.valueTo = none) : c.operand = c.value := by
  rw [operand, h]

theorem operand_of_some {high : Text} (h : c.valueTo = some high) :
    c.operand = ValueRange.display ⟨c.value, high⟩ := by
  rw [operand, h]

/-- The condition as it is typed. -/
def display (c : Condition) : Text :=
  '#' :: c.field ++ (' ' :: ('#' :: c.operator.name.toList ++ (' ' :: c.operand)))

section Names

variable {column : Column} {operator : Operator} {v : Text}

/-- The names in front of a value are those of the condition, whatever the value. -/
theorem ofText_display_on (hname : Segment.IsName column.field) (hv : Segment.FitsValue v) :
    Segment.ofText (on column operator v).display =
      .explicit column.field operator.name.toList v :=
  Segment.ofText_explicit hname Segment.isGap_space (Operator.isName_name operator)
    Segment.isGap_space hv

theorem trim_display_on (hv : SolidEnd v) :
    trim (on column operator v).display = (on column operator v).display :=
  trim_of_solid ⟨'#', _, rfl, by decide⟩
    ((((hv.append [' ']).append ('#' :: operator.name.toList)).append [' ']).append
      ('#' :: column.field))

theorem resolve?_field (hresolve : catalog.resolve? column.field = some column)
    (ho : operator.supports column.valueType = true) :
    resolve? catalog column.field operator.name.toList = some (column, operator) := by
  rw [resolve?, hresolve, Option.bind_some, Operator.resolve?_name ho, Option.map_some]

theorem ofText?_display_on (hresolve : catalog.resolve? column.field = some column)
    (hname : Segment.IsName column.field) (ho : operator.supports column.valueType = true)
    (hv : Segment.FitsValue v) (hend : SolidEnd v) (defaultColumn : Option Column) :
    ofText? defaultColumn catalog (on column operator v).display =
      ofTrimmed? column operator (Confirmation.strip v) := by
  have hshape : Segment.ofText (trim (on column operator v).display) =
      .explicit column.field operator.name.toList v := by
    rw [trim_display_on hend, ofText_display_on hname hv]
  rw [ofText?_explicit hshape, resolve?_field hresolve ho, Option.bind_some]

theorem ofText?_display_on_mark (hresolve : catalog.resolve? column.field = some column)
    (hname : Segment.IsName column.field) (ho : operator.supports column.valueType = true)
    (hv : Segment.FitsValue v) (htrim : trim v = v) (defaultColumn : Option Column) :
    ofText? defaultColumn catalog ((on column operator v).display ++ Confirmation.mark) =
      ofTrimmed? column operator v := by
  have hdisplay : (on column operator v).display ++ Confirmation.mark =
      (on column operator (v ++ Confirmation.mark)).display := by
    simp [display, operand, on]
  rw [hdisplay, ofText?_display_on hresolve hname ho hv.append_mark
    (Confirmation.solidEnd_append_mark v), Confirmation.strip_append_mark, htrim]

end Names

/-- What lets a condition be read back from what is typed for it. -/
structure Writable (catalog : Catalog) (c : Condition) : Prop where
  field_eq : c.field = c.column.field
  column : c.column.Typeable catalog
  supported : c.operator.supports c.column.valueType = true
  value : c.value.Plain
  valueTo : ∀ high ∈ c.valueTo, high.Plain ∧ c.operator = .inRange
  whole_value : c.operator = .inRange → c.valueTo = none → ValueRange.read? c.value true = none

instance (catalog : Catalog) (c : Condition) : Decidable (c.Writable catalog) :=
  decidable_of_iff (c.field = c.column.field ∧ c.column.Typeable catalog ∧
      c.operator.supports c.column.valueType = true ∧ c.value.Plain ∧
      (∀ high ∈ c.valueTo, high.Plain ∧ c.operator = .inRange) ∧
      (c.operator = .inRange → c.valueTo = none → ValueRange.read? c.value true = none))
    ⟨fun ⟨hf, hc, hs, hv, hto, hw⟩ => ⟨hf, hc, hs, hv, hto, hw⟩,
      fun h => ⟨h.field_eq, h.column, h.supported, h.value, h.valueTo, h.whole_value⟩⟩

namespace Writable

theorem fitsValue_operand (h : c.Writable catalog) : Segment.FitsValue c.operand := by
  cases hto : c.valueTo with
  | none =>
    rw [operand_of_none hto]
    exact ⟨h.value.valueStart, h.value.one_line⟩
  | some high =>
    rw [operand_of_some hto]
    exact ValueRange.fitsValue_display h.value (h.valueTo high hto).1

theorem exists_last_operand (h : c.Writable catalog) :
    ∃ r x, c.operand = r ++ [x] ∧ isBlank x = false ∧ x ≠ '#' := by
  cases hto : c.valueTo with
  | none =>
    rw [operand_of_none hto]
    exact h.value.exists_last
  | some high =>
    rw [operand_of_some hto]
    obtain ⟨r, x, hhigh, hx⟩ := (h.valueTo high hto).1.exists_last
    exact ⟨c.value ++ (" #to ".toList ++ r), x, by simp [ValueRange.display, hhigh], hx⟩

theorem strip_operand (h : c.Writable catalog) : Confirmation.strip c.operand = c.operand := by
  obtain ⟨r, x, hr, hb, hx⟩ := h.exists_last_operand
  have hstart := h.fitsValue_operand.start.solidStart
  rw [hr] at hstart ⊢
  exact Confirmation.strip_of_end hstart hb hx

theorem holdsTag_operand (h : c.Writable catalog) :
    Confirmation.holdsTag c.operand c.operator.isRange = false := by
  cases hto : c.valueTo with
  | none =>
    rw [operand_of_none hto]
    exact Confirmation.holdsTag_of_no_hash h.value.no_hash _
  | some high =>
    obtain ⟨hhigh, hrange⟩ := h.valueTo high hto
    rw [operand_of_some hto, hrange, Operator.isRange, ValueRange.holdsTag_display h.value hhigh]

theorem ofTrimmed?_operand (h : c.Writable catalog) :
    ofTrimmed? c.column c.operator c.operand = some c := by
  have hne : c.operand ≠ [] := h.fitsValue_operand.start.solidStart.ne_nil
  have htag := h.holdsTag_operand
  have hon : on c.column c.operator c.value c.valueTo = c := by rw [on, ← h.field_eq]
  cases hto : c.valueTo with
  | some high =>
    obtain ⟨hhigh, hrange⟩ := h.valueTo high hto
    have hread : ValueRange.read? c.operand true = some ⟨c.value, high⟩ := by
      rw [operand_of_some hto, ValueRange.read?_display h.value hhigh]
    rw [ofTrimmed?_of_read? htag (Operator.isRange_iff.2 hrange) hread, ← hto, hon]
  | none =>
    have hwhole : c.operator.isRange = true → ValueRange.read? c.operand true = none := by
      intro ho
      rw [operand_of_none hto]
      exact h.whole_value (Operator.isRange_iff.1 ho) hto
    rw [ofTrimmed?_of_whole hne htag hwhole, operand_of_none hto, ← hto, hon]

end Writable

end Condition

end HashtagSearch
