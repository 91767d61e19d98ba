import HashtagSearch.Matching
import Mathlib

/-!
# Scales of numbers and dates

Numbers and dates have places on a line, and what cannot be read has none. `Scale` is such a
line: comparing a cell with a value is comparing their places. The operators that order or bound
a cell are tests of one comparison each, so what they say of a row fits together: they exclude
each other or follow from each other as places on a line do, and a wider range accepts every row
that a narrower one accepts.
-/

namespace HashtagSearch

open Matching

/-! ## Places of numbers and dates -/

namespace Binary64

def finitePlace (n : ℤ) : WithBot (WithTop ℤ) := WithBot.some (WithTop.some n)

/-- The place of a number, counted in units. The two zeros have the same place, and what is not a
number has none. -/
def place? : Binary64 → Option (WithBot (WithTop ℤ))
  | finite negative significand exponent => some (finitePlace (units negative significand exponent))
  | infinite true => some ⊥
  | infinite false => some ⊤
  | nan => none

theorem compare_finitePlace (m n : ℤ) : compare (finitePlace m) (finitePlace n) = compare m n := by
  rw [← cmp_eq_compare, ← cmp_eq_compare]
  exact (WithBot.coe_strictMono.comp WithTop.coe_strictMono).cmp_map_eq m n

theorem bot_lt_finitePlace (n : ℤ) : ⊥ < finitePlace n := WithBot.bot_lt_coe _

theorem finitePlace_lt_top (n : ℤ) : finitePlace n < ⊤ :=
  WithBot.coe_lt_coe.2 (WithTop.coe_lt_top n)

theorem compare?_eq (x y : Binary64) :
    x.compare? y = x.place?.bind fun a => y.place?.map fun b => compare a b := by
  cases x with
  | nan => rfl
  | infinite n =>
    cases y with
    | nan => cases n <;> rfl
    | infinite n' =>
      cases n with
      | true =>
        cases n' with
        | true => exact congrArg some (compare_eq_iff_eq.2 rfl).symm
        | false => exact congrArg some (compare_lt_iff_lt.2 bot_lt_top).symm
      | false =>
        cases n' with
        | true => exact congrArg some (compare_gt_iff_gt.2 bot_lt_top).symm
        | false => exact congrArg some (compare_eq_iff_eq.2 rfl).symm
    | finite n' m' e' =>
      cases n with
      | true => exact congrArg some (compare_lt_iff_lt.2 (bot_lt_finitePlace _)).symm
      | false => exact congrArg some (compare_gt_iff_gt.2 (finitePlace_lt_top _)).symm
  | finite n m e =>
    cases y with
    | nan => rfl
    | infinite n' =>
      cases n' with
      | true => exact congrArg some (compare_gt_iff_gt.2 (bot_lt_finitePlace _)).symm
      | false => exact congrArg some (compare_lt_iff_lt.2 (finitePlace_lt_top _)).symm
    | finite n' m' e' => exact congrArg some (compare_finitePlace _ _).symm

end Binary64

namespace Date

def place (d : Date) : ℤ ×ₗ ℕ ×ₗ ℕ := toLex (d.year, toLex (d.month, d.day))

theorem compare_eq (d e : Date) : compare d e = compare d.place e.place := by
  rw [Prod.Lex.compare_def, compareLex, compareOn, compareOn, Prod.Lex.compare_def, compareLex,
    compareOn, compareOn]
  exact Ordering.then_assoc _ _ _

end Date

/-! ## Scales -/

/-- A line on which cells and values of a type have their places, unless they cannot be read. -/
structure Scale (type : ValueType) where
  Place : Type
  [order : LinearOrder Place]
  ofCell? : Json → Option Place
  ofText? : Text → Option Place
  compare?_eq : ∀ cell v,
    compare? type cell v = (ofCell? cell).bind fun a => (ofText? v).map fun b => compare a b

attribute [instance] Scale.order

namespace Scale

def number : Scale .number where
  Place := WithBot (WithTop ℤ)
  ofCell? cell := (numberOfCell? cell).bind Binary64.place?
  ofText? v := (numberOfText? v).bind Binary64.place?
  compare?_eq := by
    intro cell v
    rw [compare?]
    cases numberOfCell? cell with
    | none => rfl
    | some x =>
      cases numberOfText? v with
      | none => simp
      | some y => exact x.compare?_eq y

def date : Scale .date where
  Place := ℤ ×ₗ ℕ ×ₗ ℕ
  ofCell? cell := (cell.cellText?.bind Date.read?).map Date.place
  ofText? v := (Date.read? v).map Date.place
  compare?_eq := by
    intro cell v
    rw [compare?, compareBoth?]
    cases cell.cellText?.bind Date.read? with
    | none => rfl
    | some d =>
      cases Date.read? v with
      | none => rfl
      | some e => exact congrArg some (d.compare_eq e)

end Scale

/-- The scale of the numbers, or that of the dates. -/
def ValueType.scale : (type : ValueType) → type.isOrdered = true → Scale type
  | .number, _ => .number
  | .date, _ => .date

/-! ## Operators as tests of an order -/

namespace Operator

def isComparison : Operator → Bool
  | equals | greaterThan | greaterThanOrEqual | lessThan | lessThanOrEqual => true
  | _ => false

/-- Whether a comparing operator holds for cells that have this order to its value. -/
def admits : Operator → Ordering → Bool
  | equals, .eq => true
  | greaterThan, .gt | greaterThanOrEqual, .gt | greaterThanOrEqual, .eq => true
  | lessThan, .lt | lessThanOrEqual, .lt | lessThanOrEqual, .eq => true
  | _, _ => false

variable {α : Type} [LinearOrder α] {a b : α}

theorem admits_greaterThanOrEqual : greaterThanOrEqual.admits (compare a b) = true ↔ b ≤ a := by
  rw [← not_lt, ← compare_lt_iff_lt]
  cases compare a b <;> decide

theorem admits_lessThanOrEqual : lessThanOrEqual.admits (compare a b) = true ↔ a ≤ b := by
  rw [← not_lt, ← compare_gt_iff_gt]
  cases compare a b <;> decide

end Operator

variable {row : Row} {field v w v' w' : Text} {column : Column} {type : ValueType}

namespace Row

/-- Whether a row satisfies the operator on a field with the values. -/
def meets (row : Row) (field : Text) (column : Column) (o : Operator) (v : Text)
    (high : Option Text := none) : Bool :=
  Condition.accepts ⟨field, column, o, v, high⟩ row

/-- The order of the cell that a row has in a field, and a value. -/
def order? (row : Row) (field : Text) (type : ValueType) (v : Text) : Option Ordering :=
  (cell? row field).bind fun cell => compare? type cell v

theorem meets_eq (o : Operator) (h : o.isComparison = true) {high : Option Text} :
    row.meets field column o v high = (row.order? field column.valueType v).any o.admits := by
  rw [meets, Condition.accepts, order?]
  cases o with
  | contains | notContains | startsWith | endsWith | notEquals | inRange => cases h
  | equals | greaterThan | greaterThanOrEqual | lessThan | lessThanOrEqual =>
    cases cell? row field with
    | none => rfl
    | some cell =>
      simp only [Condition.acceptsCell, Option.bind_some]
      cases compare? column.valueType cell v with
      | none => rfl
      | some order => cases order <;> rfl

/-- A range bounds a cell by its values as two other operators do. -/
theorem meets_inRange (high : Option Text) :
    row.meets field column .inRange v high =
      (row.meets field column .greaterThanOrEqual v &&
        high.all fun w => row.meets field column .lessThanOrEqual w) := by
  rw [meets, Condition.accepts]
  cases hcell : cell? row field with
  | none => simp [meets, Condition.accepts, hcell, Operator.isNegated]
  | some cell => simp [meets, Condition.accepts, hcell, Condition.acceptsCell]

theorem meets_inRange_none :
    row.meets field column .inRange v = row.meets field column .greaterThanOrEqual v := by
  rw [meets_inRange, Option.all_none, Bool.and_true]

/-- Of the three operators that exclude each other one holds exactly where there is an order. -/
theorem countP_meets (row : Row) (field : Text) (column : Column) (v : Text) :
    [Operator.lessThan, .equals, .greaterThan].countP (row.meets field column · v) =
      if (row.order? field column.valueType v).isSome then 1 else 0 := by
  simp only [List.countP_cons, List.countP_nil, meets_eq .lessThan rfl, meets_eq .equals rfl,
    meets_eq .greaterThan rfl]
  cases row.order? field column.valueType v with
  | none => rfl
  | some order => cases order <;> rfl

/-- An operator that admits what two others admit holds where one of them does. -/
theorem meets_or {o p q : Operator} (ho : o.isComparison = true) (hp : p.isComparison = true)
    (hq : q.isComparison = true)
    (h : ∀ order, o.admits order = (p.admits order || q.admits order)) :
    row.meets field column o v =
      (row.meets field column p v || row.meets field column q v) := by
  rw [meets_eq o ho, meets_eq p hp, meets_eq q hq]
  cases row.order? field column.valueType v with
  | none => rfl
  | some order => exact h order

end Row

/-! ## Places of a row and of values -/

namespace Scale

def ofRow? (s : Scale type) (row : Row) (field : Text) : Option s.Place :=
  (Row.cell? row field).bind s.ofCell?

/-- Both values have places, and that of the first is not behind that of the second. -/
def AtMost (s : Scale type) (v w : Text) : Prop :=
  ∃ a b, s.ofText? v = some a ∧ s.ofText? w = some b ∧ a ≤ b

theorem order?_eq (s : Scale type) (row : Row) (field v : Text) :
    row.order? field type v =
      (s.ofRow? row field).bind fun a => (s.ofText? v).map fun b => compare a b := by
  rw [Row.order?, ofRow?]
  cases Row.cell? row field with
  | none => rfl
  | some cell => exact s.compare?_eq cell v

theorem isSome_order?_iff (s : Scale type) :
    (row.order? field type v).isSome = true ↔
      (s.ofRow? row field).isSome = true ∧ (s.ofText? v).isSome = true := by
  rw [s.order?_eq]
  cases s.ofRow? row field <;> cases s.ofText? v <;> simp

theorem order?_eq_some_iff (s : Scale type) {order : Ordering} :
    row.order? field type v = some order ↔
      ∃ a b, s.ofRow? row field = some a ∧ s.ofText? v = some b ∧ compare a b = order := by
  rw [s.order?_eq]
  simp [Option.bind_eq_some_iff, Option.map_eq_some_iff]

variable (s : Scale column.valueType)

theorem meets_iff (o : Operator) (h : o.isComparison = true) :
    row.meets field column o v = true ↔
      ∃ a b, s.ofRow? row field = some a ∧ s.ofText? v = some b ∧
        o.admits (compare a b) = true := by
  rw [Row.meets_eq o h, Option.any_eq_true]
  constructor
  · rintro ⟨order, horder, hadmits⟩
    obtain ⟨a, b, ha, hb, rfl⟩ := s.order?_eq_some_iff.1 horder
    exact ⟨a, b, ha, hb, hadmits⟩
  · rintro ⟨a, b, ha, hb, hadmits⟩
    exact ⟨_, s.order?_eq_some_iff.2 ⟨a, b, ha, hb, rfl⟩, hadmits⟩

/-- A cell that satisfies an operator with one value satisfies it with every value of which the
operator admits as much. -/
theorem meets_of_imp (o : Operator) (ho : o.isComparison = true) {a b : s.Place}
    (ha : s.ofText? v = some a) (hb : s.ofText? w = some b)
    (himp : ∀ c, o.admits (compare c a) = true → o.admits (compare c b) = true)
    (h : row.meets field column o v = true) : row.meets field column o w = true := by
  obtain ⟨c, a', hc, ha', hadmits⟩ := (s.meets_iff o ho).1 h
  obtain rfl : a = a' := Option.some.inj (ha.symm.trans ha')
  exact (s.meets_iff o ho).2 ⟨c, b, hc, hb, himp c hadmits⟩

variable {s}

theorem AtMost.meets_greaterThanOrEqual (hv : s.AtMost v' v)
    (h : row.meets field column .greaterThanOrEqual v = true) :
    row.meets field column .greaterThanOrEqual v' = true := by
  obtain ⟨a', a, ha', ha, hle⟩ := hv
  apply s.meets_of_imp .greaterThanOrEqual rfl ha ha' _ h
  intro c hc
  have hac : a ≤ c := Operator.admits_greaterThanOrEqual.1 hc
  exact Operator.admits_greaterThanOrEqual.2 (hle.trans hac)

theorem AtMost.meets_lessThanOrEqual (hw : s.AtMost w w')
    (h : row.meets field column .lessThanOrEqual w = true) :
    row.meets field column .lessThanOrEqual w' = true := by
  obtain ⟨a, a', ha, ha', hle⟩ := hw
  apply s.meets_of_imp .lessThanOrEqual rfl ha ha' _ h
  intro c hc
  have hca : c ≤ a := Operator.admits_lessThanOrEqual.1 hc
  exact Operator.admits_lessThanOrEqual.2 (hca.trans hle)

theorem AtMost.meets_inRange (hv : s.AtMost v' v) (hw : s.AtMost w w')
    (h : row.meets field column .inRange v (some w) = true) :
    row.meets field column .inRange v' (some w') = true := by
  rw [Row.meets_inRange, Option.all_some, Bool.and_eq_true] at h ⊢
  exact ⟨hv.meets_greaterThanOrEqual h.1, hw.meets_lessThanOrEqual h.2⟩

end Scale

namespace ValueType

theorem ofCell?_string (hordered : type.isOrdered = true) (v : Text) :
    (type.scale hordered).ofCell? (.string v) = (type.scale hordered).ofText? v := by
  cases type with
  | number | date => rfl
  | text | boolean => cases hordered

/-- The order of values is the one in which a cell with the text of the first compares. -/
theorem atMost_iff (hordered : type.isOrdered = true) :
    (type.scale hordered).AtMost v w ↔
      (compare? type (.string v) w).any Operator.lessThanOrEqual.admits = true := by
  rw [(type.scale hordered).compare?_eq, ofCell?_string, Scale.AtMost]
  cases (type.scale hordered).ofText? v with
  | none => simp
  | some a =>
    cases (type.scale hordered).ofText? w with
    | none => simp
    | some b => simpa using Operator.admits_lessThanOrEqual.symm

end ValueType

/-! ## The operators together -/

/-- On a column of numbers or dates: of less, equal and greater at most one holds, and one does
exactly where the cell and the value have places; the operators that let both be equal say what
they seem to; a range is bounded as by two of them, or by one if its end is open; and a wider
range accepts every row that a narrower one accepts. -/
theorem Row.meets_coherent (hordered : column.valueType.isOrdered = true) (row : Row)
    (field v w : Text) :
    [Operator.lessThan, .equals, .greaterThan].countP (row.meets field column · v) ≤ 1 ∧
    ([Operator.lessThan, .equals, .greaterThan].countP (row.meets field column · v) = 1 ↔
      ((column.valueType.scale hordered).ofRow? row field).isSome = true ∧
        ((column.valueType.scale hordered).ofText? v).isSome = true) ∧
    row.meets field column .greaterThanOrEqual v =
      (row.meets field column .greaterThan v || row.meets field column .equals v) ∧
    row.meets field column .lessThanOrEqual v =
      (row.meets field column .lessThan v || row.meets field column .equals v) ∧
    row.meets field column .inRange v (some w) =
      (row.meets field column .greaterThanOrEqual v &&
        row.meets field column .lessThanOrEqual w) ∧
    row.meets field column .inRange v = row.meets field column .greaterThanOrEqual v ∧
    ∀ v' w', (column.valueType.scale hordered).AtMost v' v →
      (column.valueType.scale hordered).AtMost w w' →
      row.meets field column .inRange v (some w) = true →
      row.meets field column .inRange v' (some w') = true := by
  refine ⟨?_, ?_, meets_or rfl rfl rfl ?_, meets_or rfl rfl rfl ?_, meets_inRange (some w),
    meets_inRange_none, ?_⟩
  · rw [countP_meets]
    split <;> decide
  · rw [countP_meets, ← Scale.isSome_order?_iff]
    cases (row.order? field column.valueType v).isSome <;> decide
  · intro order
    cases order <;> rfl
  · intro order
    cases order <;> rfl
  · intro v' w' hv hw h
    exact hv.meets_inRange hw h

/-- A cell with the text of a number lies between two numbers, and between the infinities. -/
theorem Row.meets_coherent_infinite : ∃ (column : Column) (row : Row),
    column = ⟨"price".toList, [], true, .number⟩ ∧ row = [("price".toList, .string "4.50".toList)] ∧
    column.valueType.isOrdered = true ∧
    [Operator.lessThan, .equals, .greaterThan].countP
      (row.meets column.field column · ['4']) = 1 ∧
    row.meets column.field column .inRange ['4'] (some "1e1".toList) = true ∧
    row.meets column.field column .inRange "-inf".toList (some "Infinity".toList) = true := by
  have hordered : ValueType.isOrdered (Column.valueType ⟨"price".toList, [], true, .number⟩) =
    true := rfl
  obtain ⟨-, hone, -, -, -, -, hwider⟩ := Row.meets_coherent hordered
    [("price".toList, .string "4.50".toList)] "price".toList ['4'] "1e1".toList
  have hlow : (ValueType.number.scale hordered).AtMost "-inf".toList ['4'] :=
    (ValueType.atMost_iff hordered).2 (by decide +kernel)
  have hhigh : (ValueType.number.scale hordered).AtMost "1e1".toList "Infinity".toList :=
    (ValueType.atMost_iff hordered).2 (by decide +kernel)
  have hrange : Row.meets [("price".toList, .string "4.50".toList)] "price".toList
      ⟨"price".toList, [], true, .number⟩ .inRange ['4'] (some "1e1".toList) = true := by
    decide +kernel
  have hplaces := (Scale.isSome_order?_iff (ValueType.number.scale hordered)).1
    (by decide +kernel : (Row.order? [("price".toList, .string "4.50".toList)] "price".toList
      .number ['4']).isSome = true)
  exact ⟨_, _, rfl, rfl, rfl, hone.2 hplaces, hrange, hwider _ _ hlow hhigh hrange⟩

end HashtagSearch
