import HashtagSearch.Draft
import HashtagSearch.Proofs.Ranges

/-!
# Drafts of conditions

What every draft of a segment satisfies, however far it has been typed: a part is there
only if the parts that give it a meaning are there as well.
-/

namespace HashtagSearch

namespace Draft

variable {catalog : Catalog} {base running column : Column} {operator : Operator}

/-- Each part of a draft has the parts in front of it that it needs. -/
structure WellFormed (d : Draft) : Prop where
  field_eq : d.field = d.column.map (·.field)
  operator_supported : ∀ o ∈ d.operator, ∃ c ∈ d.column, o.supports c.valueType = true
  value_ne_nil : ∀ v ∈ d.value, v ≠ [] ∧ d.operator.isSome = true
  valueTo_ne_nil : ∀ w ∈ d.valueTo, w ≠ [] ∧ d.value.isSome = true ∧ d.operator = some .inRange
  waiting : d.waitingForValueTo = true →
    d.operator = some .inRange ∧ d.value.isSome = true ∧ d.valueTo = none

theorem wellFormed_empty : WellFormed empty := by
  constructor <;> simp [empty]

theorem wellFormed_ofColumn (c : Column) : WellFormed (ofColumn c) := by
  constructor <;> simp [ofColumn]

theorem wellFormed_named (c : Column) (name : Text) :
    WellFormed { ofColumn c with operator := Operator.resolve? c.valueType name } := by
  constructor <;> simp [ofColumn]
  intro o ho
  exact Operator.supports_of_resolve? ho

theorem wellFormed_ofOperator (h : operator.supports column.valueType = true) :
    WellFormed (ofOperator column operator) := by
  constructor <;> simp [ofOperator, ofColumn, h]

theorem wellFormed_withValue (h : operator.supports column.valueType = true) (v : Text) :
    WellFormed ((ofOperator column operator).withValue v) := by
  unfold withValue
  split
  · exact wellFormed_ofOperator h
  · next hv => constructor <;> simp_all [ofOperator, ofColumn]

theorem wellFormed_ofRange (h : operator.supports column.valueType = true)
    (hr : operator.isRange = true) (v : Text) (confirmed : Bool) :
    WellFormed ((ofOperator column operator).ofRange v confirmed) := by
  have ho := Operator.isRange_iff.1 hr
  unfold ofRange
  split
  · next r _ hread =>
    obtain ⟨hlow, hhigh⟩ := ValueRange.ends_ne_nil hread
    constructor <;> simp_all [ofOperator, ofColumn]
  · next low _ hopen =>
    have hlow := ValueRange.openEnd_ne_nil hopen
    constructor <;> simp_all [ofOperator, ofColumn]
  · exact wellFormed_withValue h v

theorem wellFormed_ofValue (h : operator.supports column.valueType = true) (raw : Text)
    (confirmed : Bool) : WellFormed (ofValue column operator raw confirmed) := by
  unfold ofValue ofStripped
  split
  · exact wellFormed_ofOperator h
  · split
    · next hr => exact wellFormed_ofRange h hr _ confirmed
    · exact wellFormed_withValue h _

theorem wellFormed_ofSegment (confirmed : Bool) (s : Segment) :
    WellFormed (ofSegment catalog base running confirmed s) := by
  cases s with
  | explicit name operatorName value =>
    simp only [ofSegment]
    split
    · next hr => exact wellFormed_ofValue (Condition.known_of_resolve? hr).2 value confirmed
    · exact wellFormed_empty
  | named name operatorName =>
    simp only [ofSegment]
    split
    · exact wellFormed_named _ operatorName
    · exact wellFormed_empty
  | opened name =>
    simp only [ofSegment]
    split
    · exact wellFormed_ofColumn _
    · exact wellFormed_empty
  | continued operatorName value =>
    simp only [ofSegment]
    split
    · next ho => exact wellFormed_ofValue (Operator.supports_of_resolve? ho) value confirmed
    · exact wellFormed_empty
  | tag name =>
    simp only [ofSegment]
    split
    · next ho => exact wellFormed_ofOperator (Operator.supports_of_resolve? ho)
    · exact wellFormed_ofColumn _
    · exact wellFormed_empty
  | blank => exact wellFormed_empty
  | other => exact wellFormed_empty

theorem wellFormed_ofFirst? {t : Text} {d : Draft} (h : ofFirst? catalog t = some (base, d)) :
    WellFormed d := by
  unfold ofFirst? at h
  split at h
  · next value _ =>
    obtain ⟨⟨c, o⟩, hr, heq⟩ := Option.map_eq_some_iff.1 h
    cases heq
    exact wellFormed_ofValue (Condition.known_of_resolve? hr).2 value true
  · cases h

theorem wellFormed_ofSegments {triggered : Bool} {tail : List (Join × Text)} :
    ∀ p ∈ ofSegments catalog base triggered running tail, WellFormed p.2 := by
  induction tail generalizing running with
  | nil => simp [ofSegments]
  | cons p rest ih =>
    intro q hq
    rcases List.mem_cons.1 hq with rfl | hq
    · exact wellFormed_ofSegment _ _
    · exact ih q hq

theorem joins_ofSegments (triggered : Bool) (tail : List (Join × Text)) :
    (ofSegments catalog base triggered running tail).map (·.1) = tail.map (·.1) := by
  induction tail generalizing running with
  | nil => rfl
  | cons p rest ih => exact congrArg (p.1 :: ·) ih

end Draft

end HashtagSearch
