import HashtagSearch.Proofs.Flat.Writing
import HashtagSearch.Proofs.Matching.Scales
import HashtagSearch.Proofs.Values.Ends
import HashtagSearch.Proofs.Values.Literals

/-!
# Single values of ranges

A range operator may have one value, which bounds the cells from below. A confirmed condition
cuts its value at the first hyphen behind the first character, though, whatever the hyphen is
for: it goes through every date and every number with a negative exponent. What is left in front
is no value of the column, so that the condition accepts no row.
-/

namespace HashtagSearch

open Text

/-! ## Values of a type -/

namespace ValueType

variable {type : ValueType} {v low high : Text}

/-- Whether the text is one value of a type that has ranges. -/
def isLiteral : ValueType → Text → Bool
  | number, v => (Matching.numberOfText? v).isSome
  | date, v => (Date.read? v).isSome
  | text, _ | boolean, _ => false

/-- The first hyphen behind the first character cuts the text, and what is in front of it is no
value of the type. -/
structure Tears (type : ValueType) (v low high : Text) : Prop where
  eq : v = low ++ '-' :: high
  low_ne_nil : low ≠ []
  hyphen : '-' ∉ low.tail
  low_no_blank : ∀ c ∈ low, isBlank c = false
  high_not_blank : ∃ c ∈ high, isBlank c = false
  low_not_literal : type.isLiteral low = false

theorem mem_tail_of_eq (h : v = low ++ '-' :: high) (hlow : low ≠ []) : '-' ∈ v.tail := by
  obtain ⟨c, low, rfl⟩ := List.exists_cons_of_ne_nil hlow
  simp [h]

theorem inRange_of_isLiteral (h : type.isLiteral v = true) :
    Operator.inRange.supports type = true := by
  cases type with
  | number | date => rfl
  | text | boolean => cases h

/-- A number stands on one line, and a hyphen behind its first character tears its exponent. -/
theorem exists_number (h : number.isLiteral v = true) (htrim : trim v = v) :
    '\n' ∉ v ∧ ('-' ∈ v.tail →
      ∃ low digits, Number.NegativeExponent v low digits ∧ number.Tears v low digits) := by
  rw [isLiteral, Matching.numberOfText?, htrim] at h
  obtain ⟨n, hn⟩ := Option.isSome_iff_exists.1 h
  obtain ⟨hblank, hcut⟩ := Number.exists_of_read? hn
  refine ⟨fun hline => absurd (hblank _ hline) (by decide), fun hmem => ?_⟩
  obtain ⟨low, digits, hexp, hhyphen, hnone⟩ := hcut hmem
  have hlow : ∀ c ∈ low, isBlank c = false := by
    rw [hexp.eq] at hblank
    exact fun c hc => hblank c (List.mem_append_left _ hc)
  obtain ⟨c, hc⟩ := List.exists_mem_of_ne_nil digits hexp.digits_ne_nil
  refine ⟨low, digits, hexp, hexp.eq, ?_, hhyphen, hlow,
    ⟨c, hc, not_blank_of_isDigit (hexp.all_digits c hc)⟩, ?_⟩
  · obtain ⟨mantissa, e, rfl, -⟩ := hexp.letter
    simp
  · rw [isLiteral, Matching.numberOfText?, trim_of_no_blank hlow, hnone, Option.isSome_none]

/-- Every date is torn behind its year. -/
theorem exists_date (h : date.isLiteral v = true) (htrim : trim v = v) :
    ∃ year high, date.Tears v year high := by
  obtain ⟨d, hd⟩ := Option.isSome_iff_exists.1 h
  obtain ⟨year, high, hv, hne, hhyphen, hyear, hhigh⟩ := Date.exists_of_read? hd htrim
  refine ⟨year, high, hv, hne, hhyphen, hyear, hhigh, ?_⟩
  -- A date would have a hyphen behind its year.
  rw [isLiteral, Option.isSome_eq_false_iff, Option.isNone_iff_eq_none]
  by_contra hsome
  obtain ⟨d', hd'⟩ := Option.ne_none_iff_exists'.1 hsome
  obtain ⟨year', high', hyear', hne', -⟩ := Date.exists_of_read? hd' (trim_of_no_blank hyear)
  exact hhyphen (mem_tail_of_eq hyear' hne')

theorem ne_nil_of_isLiteral (h : type.isLiteral v = true) (htrim : trim v = v) : v ≠ [] := by
  rintro rfl
  cases type with
  | number => revert h; decide
  | date =>
    obtain ⟨year, high, hyear⟩ := exists_date h htrim
    cases year <;> cases hyear.eq
  | text | boolean => cases h

/-- The values that are torn are the dates and the numbers with a negative exponent. -/
theorem mem_tail_iff (h : type.isLiteral v = true) (htrim : trim v = v) :
    '-' ∈ v.tail ↔ type = date ∨ ∃ low digits, Number.NegativeExponent v low digits := by
  constructor
  · intro hmem
    cases type with
    | number =>
      obtain ⟨low, digits, hexp, -⟩ := (exists_number h htrim).2 hmem
      exact .inr ⟨low, digits, hexp⟩
    | date => exact .inl rfl
    | text | boolean => cases h
  · rintro (rfl | ⟨low, digits, hexp⟩)
    · obtain ⟨year, high, htears⟩ := exists_date h htrim
      exact mem_tail_of_eq htears.eq htears.low_ne_nil
    · obtain ⟨mantissa, e, rfl, -⟩ := hexp.letter
      exact mem_tail_of_eq hexp.eq (by simp)

theorem exists_tears (h : type.isLiteral v = true) (htrim : trim v = v) (hmem : '-' ∈ v.tail) :
    ∃ low high, type.Tears v low high := by
  cases type with
  | number =>
    obtain ⟨low, digits, -, htears⟩ := (exists_number h htrim).2 hmem
    exact ⟨low, digits, htears⟩
  | date => exact exists_date h htrim
  | text | boolean => cases h

theorem one_line_of_not_mem (h : type.isLiteral v = true) (htrim : trim v = v)
    (hmem : '-' ∉ v.tail) : '\n' ∉ v := by
  cases type with
  | number => exact (exists_number h htrim).1
  | date => exact absurd ((mem_tail_iff h htrim).2 (.inl rfl)) hmem
  | text | boolean => cases h

theorem compare?_eq_none (hv : type.isLiteral v = true) (hlow : type.isLiteral low = false)
    (cell : Json) : Matching.compare? type cell low = none := by
  cases type with
  | number =>
    have hnone : Matching.numberOfText? low = none := by simpa [isLiteral] using hlow
    rw [Matching.compare?, hnone]
    cases Matching.numberOfCell? cell <;> rfl
  | date =>
    have hnone : Date.read? low = none := by simpa [isLiteral] using hlow
    rw [Matching.compare?, hnone]
    cases cell.cellText?.bind Date.read? <;> rfl
  | text | boolean => cases hv

end ValueType

/-- In a text without marks the range that is read has its ends around the hyphen. -/
theorem ValueRange.read?_of_tears {type : ValueType} {v low high : Text}
    (h : type.Tears v low high) (htrim : trim v = v) (hhash : '#' ∉ v) :
    read? v true = some ⟨low, trim high⟩ := by
  obtain ⟨c, hc, hblank⟩ := h.high_not_blank
  have hhigh : trim high ≠ [] := by
    intro hnil
    rw [trim_eq_nil_iff.1 hnil c hc] at hblank
    cases hblank
  have hsplit : splitAtHyphen? v = some (low, high) := by
    rw [h.eq]
    exact splitAtHyphen?_append h.low_ne_nil h.hyphen high
  rw [read?, htrim, splitAtMark?_of_no_hash hhash, if_pos rfl, hsplit]
  simp [ofEnds?, trim_of_no_blank h.low_no_blank, h.low_ne_nil, hhigh]

namespace Condition

variable {catalog : Catalog} {column : Column} {v low high : Text}

theorem accepts_eq_false (hv : column.valueType.isLiteral v = true)
    (hlow : column.valueType.isLiteral low = false) (highEnd : Option Text) (row : Row) :
    (on column .inRange low highEnd).accepts row = false := by
  unfold accepts
  split
  · next cell _ => simp [acceptsCell, on, ValueType.compare?_eq_none hv hlow cell]
  · rfl

theorem accepts_inRange (column : Column) (v : Text) (row : Row) :
    (on column .inRange v).accepts row = (on column .greaterThanOrEqual v).accepts row :=
  Row.meets_inRange_none

/-- A condition on several lines is not read. -/
theorem ofText?_of_lines (hname : Segment.IsName column.field) (hstart : ValueStart v)
    (hend : SolidEnd v) (hline : '\n' ∈ v) (defaultColumn : Option Column) :
    ofText? defaultColumn catalog ((on column .inRange v).display ++ Confirmation.mark) = none := by
  have hother : Segment.ofText (on column .inRange v).display = .other := by
    have hshape := Segment.ofText_explicit_start hname Segment.isGap_space
      (Operator.isName_name .inRange) Segment.isGap_space hstart
    rw [if_pos hline] at hshape
    exact hshape
  rw [ofText?, Confirmation.strip_append_mark, trim_display_on hend, hother]

/-- A value of a number or date column behind the range operator. Without a hyphen behind its
first character it is kept and bounds the cells from below. Otherwise it is torn there, unless
it runs over several lines and is not read at all, and the range that remains accepts no row. It
comes to that for all dates, and for the numbers with a negative exponent. -/
theorem ofText?_literal (hresolve : catalog.resolve? column.field = some column)
    (hname : Segment.IsName column.field) (hv : column.valueType.isLiteral v = true)
    (htrim : trim v = v) (hhash : '#' ∉ v) (defaultColumn : Option Column) :
    ('-' ∉ v.tail →
      ofText? defaultColumn catalog ((on column .inRange v).display ++ Confirmation.mark) =
          some (.on column .inRange v) ∧
        ∀ row, (on column .inRange v).accepts row = (on column .greaterThanOrEqual v).accepts row) ∧
    ('-' ∈ v.tail → ∃ low high, column.valueType.Tears v low high ∧
      ofText? defaultColumn catalog ((on column .inRange v).display ++ Confirmation.mark) =
          (if '\n' ∈ v then none else some (.on column .inRange low (some (trim high)))) ∧
        ∀ row, (on column .inRange low (some (trim high))).accepts row = false) ∧
    ('-' ∈ v.tail ↔ column.valueType = .date ∨
      ∃ low digits, Number.NegativeExponent v low digits) := by
  have hsupports := ValueType.inRange_of_isLiteral hv
  have hne := ValueType.ne_nil_of_isLiteral hv htrim
  have hstart := valueStart_of_no_hash hne htrim hhash
  have htag : Confirmation.holdsTag v Operator.inRange.isRange = false :=
    Confirmation.holdsTag_of_no_hash hhash _
  refine ⟨fun hmem => ⟨?_, accepts_inRange column v⟩, fun hmem => ?_,
    ValueType.mem_tail_iff hv htrim⟩
  · have hline := ValueType.one_line_of_not_mem hv htrim hmem
    have hread : ValueRange.read? v true = none := by
      rw [ValueRange.read?, htrim, ValueRange.splitAtMark?_of_no_hash hhash,
        ValueRange.splitAtHyphen?_eq_none hmem]
      rfl
    rw [ofText?_display_on_mark hresolve hname hsupports ⟨hstart, hline⟩ htrim,
      ofTrimmed?_of_whole hne htag fun _ => hread]
  · obtain ⟨low, high, htears⟩ := ValueType.exists_tears hv htrim hmem
    refine ⟨low, high, htears, ?_, accepts_eq_false hv htears.low_not_literal _⟩
    split
    · next hline =>
      exact ofText?_of_lines hname hstart (solid_of_trim_eq hne htrim).2 hline defaultColumn
    · next hline =>
      rw [ofText?_display_on_mark hresolve hname hsupports ⟨hstart, hline⟩ htrim,
        ofTrimmed?_of_read? htag rfl (ValueRange.read?_of_tears htears htrim hhash)]

/-- A negative number is kept whole, and one with a negative exponent and a date are torn. -/
theorem ofText?_literal_torn :
    Catalog.resolve? [⟨"price".toList, [], true, .number⟩, ⟨"due".toList, [], true, .date⟩]
      "price".toList = some ⟨"price".toList, [], true, .number⟩ ∧
    Catalog.resolve? [⟨"price".toList, [], true, .number⟩, ⟨"due".toList, [], true, .date⟩]
      "due".toList = some ⟨"due".toList, [], true, .date⟩ ∧
    Segment.IsName "price".toList ∧ Segment.IsName "due".toList ∧
    ValueType.number.isLiteral "-1.5".toList = true ∧
    ValueType.number.isLiteral "-1.5E-3".toList = true ∧
    ValueType.date.isLiteral "2024-01-01".toList = true ∧
    ofText? none [⟨"price".toList, [], true, .number⟩, ⟨"due".toList, [], true, .date⟩]
      "#price #inRange -1.5##".toList =
        some (.on ⟨"price".toList, [], true, .number⟩ .inRange "-1.5".toList) ∧
    (∃ low high, ValueType.number.Tears "-1.5E-3".toList low high ∧
      ofText? none [⟨"price".toList, [], true, .number⟩, ⟨"due".toList, [], true, .date⟩]
        "#price #inRange -1.5E-3##".toList =
          some (.on ⟨"price".toList, [], true, .number⟩ .inRange low (some (trim high)))) ∧
    ∃ low high, ValueType.date.Tears "2024-01-01".toList low high ∧
      ofText? none [⟨"price".toList, [], true, .number⟩, ⟨"due".toList, [], true, .date⟩]
        "#due #inRange 2024-01-01##".toList =
          some (.on ⟨"due".toList, [], true, .date⟩ .inRange low (some (trim high))) := by
  have hprice : Catalog.resolve? [⟨"price".toList, [], true, .number⟩,
      ⟨"due".toList, [], true, .date⟩] (Column.field ⟨"price".toList, [], true, .number⟩) =
        some ⟨"price".toList, [], true, .number⟩ := by decide +kernel
  have hdue : Catalog.resolve? [⟨"price".toList, [], true, .number⟩,
      ⟨"due".toList, [], true, .date⟩] (Column.field ⟨"due".toList, [], true, .date⟩) =
        some ⟨"due".toList, [], true, .date⟩ := by decide +kernel
  have hpriceName : Segment.IsName (Column.field ⟨"price".toList, [], true, .number⟩) :=
    ⟨by decide, List.all_eq_true.1 (by decide)⟩
  have hdueName : Segment.IsName (Column.field ⟨"due".toList, [], true, .date⟩) :=
    ⟨by decide, List.all_eq_true.1 (by decide)⟩
  have hwhole : ValueType.number.isLiteral "-1.5".toList = true := by decide +kernel
  have hexponent : ValueType.number.isLiteral "-1.5E-3".toList = true := by decide +kernel
  have hdate : ValueType.date.isLiteral "2024-01-01".toList = true := by decide +kernel
  obtain ⟨hkept, -, -⟩ := ofText?_literal hprice hpriceName hwhole (by decide) (by decide) none
  obtain ⟨-, hnumber, -⟩ :=
    ofText?_literal hprice hpriceName hexponent (by decide) (by decide) none
  obtain ⟨-, hyear, -⟩ := ofText?_literal hdue hdueName hdate (by decide) (by decide) none
  obtain ⟨low, high, htears, hread, -⟩ := hnumber (by decide)
  obtain ⟨low', high', htears', hread', -⟩ := hyear (by decide)
  exact ⟨hprice, hdue, hpriceName, hdueName, hwhole, hexponent, hdate, (hkept (by decide)).1,
    ⟨low, high, htears, hread⟩, low', high', htears', hread'⟩

/-- A date is a value of its column, and is not kept as the low end of a range. -/
theorem exists_torn_date :
    ValueType.date.isLiteral "2024-01-01".toList = true ∧
    ofText? none [⟨"due".toList, [], true, .date⟩] "#due #inRange 2024-01-01##".toList =
      some (.on ⟨"due".toList, [], true, .date⟩ .inRange "2024".toList (some "01-01".toList)) := by
  decide +kernel

end Condition

end HashtagSearch
