import HashtagSearch.Confirmed
import HashtagSearch.Proofs.Splitting
import HashtagSearch.Proofs.Stripping

/-!
# Reading finished searches

A segment with a value is read like its shape, with the marks taken off the value. When
every segment of a confirmed search is a condition, these conditions are the filter.
-/

namespace HashtagSearch

variable {catalog : Catalog}

/-! ## Values -/

namespace Condition

section Values

variable {column : Column} {operator : Operator} {v : Text}

theorem ofTrimmed?_of_read? {r : ValueRange}
    (ht : Confirmation.holdsTag v operator.isRange = false) (ho : operator.isRange = true)
    (hr : ValueRange.read? v true = some r) :
    ofTrimmed? column operator v = some (on column operator r.low (some r.high)) := by
  have hv : v ≠ [] := by
    rintro rfl
    cases hr
  rw [ofTrimmed?, ht, if_neg (by simpa using hv), if_pos ho, hr]

theorem ofTrimmed?_of_whole (hv : v ≠ [])
    (ht : Confirmation.holdsTag v operator.isRange = false)
    (hr : operator.isRange = true → ValueRange.read? v true = none) :
    ofTrimmed? column operator v = some (on column operator v) := by
  rw [ofTrimmed?, ht, if_neg (by simpa using hv)]
  split
  · next ho => rw [hr ho]
  · rfl

end Values

/-! ## Segments -/

theorem ofText?_explicit {t column operator value : Text}
    (h : Segment.ofText (Text.trim t) = .explicit column operator value)
    (defaultColumn : Option Column) : ofText? defaultColumn catalog t =
      (resolve? catalog column operator).bind fun (c, o) =>
        ofTrimmed? c o (Confirmation.strip value) := by
  have hs : Segment.ofText (Confirmation.strip t) =
      .explicit column operator (Confirmation.strip value) := by
    rw [Segment.ofText_strip (by rw [h]; rfl), h]
    rfl
  simp only [ofText?, hs, ofValue?, Confirmation.trim_strip]

theorem ofText?_continued {t operator value : Text}
    (h : Segment.ofText (Text.trim t) = .continued operator value) (base : Column) :
    ofText? (some base) catalog t = (Operator.resolve? base.valueType operator).bind fun o =>
      ofTrimmed? base o (Confirmation.strip value) := by
  have hs : Segment.ofText (Confirmation.strip t) =
      .continued operator (Confirmation.strip value) := by
    rw [Segment.ofText_strip (by rw [h]; rfl), h]
    rfl
  simp only [ofText?, hs, ofValue?, Confirmation.trim_strip, Option.bind_some]

theorem ofText?_of_none {t : Text} {c : Condition} (h : ofText? none catalog t = some c)
    (defaultColumn : Option Column) : ofText? defaultColumn catalog t = some c := by
  unfold ofText? at h ⊢
  split at h
  · next hs => simpa only [hs] using h
  · cases h
  · cases h

theorem ofText?_congr {s t : Text} (h : Confirmation.strip s = Confirmation.strip t)
    (defaultColumn : Option Column) :
    ofText? defaultColumn catalog s = ofText? defaultColumn catalog t := by
  rw [ofText?, h, ← ofText?]

end Condition

/-! ## Sequences without a gap -/

namespace Joined

variable {α β : Type}

theorem filterMap_eq_some {s : Joined α} {f : α → Option β} {r : Joined β}
    (h : s.map f = r.map some) : s.filterMap f = some r := by
  obtain ⟨a, tail⟩ := s
  obtain ⟨b, kept⟩ := r
  obtain ⟨ha, htail⟩ := Joined.mk.inj h
  have hkept : (tail.filterMap fun p => (f p.2).map (p.1, ·)) = kept := by
    calc (tail.filterMap fun p => (f p.2).map (p.1, ·))
        = (tail.map fun p => (p.1, f p.2)).filterMap fun p => p.2.map (p.1, ·) := by
          rw [List.filterMap_map]
          rfl
      _ = (kept.map fun p => (p.1, some p.2)).filterMap fun p => p.2.map (p.1, ·) :=
          congrArg _ htail
      _ = kept := by
          rw [List.filterMap_map]
          exact List.filterMap_some
  change f a = some b at ha
  simp only [filterMap, ha, hkept]

section Concat

variable (a b : α) (init : List (Join × α)) (join : Join)

theorem items_concat : items ⟨a, init ++ [(join, b)]⟩ = a :: init.map (·.2) ++ [b] := by
  simp [items]

theorem joins_concat : joins ⟨a, init ++ [(join, b)]⟩ = init.map (·.1) ++ [join] := by
  simp [joins]

theorem last_concat : last ⟨a, init ++ [(join, b)]⟩ = b := by
  simp [last, items]

end Concat

theorem filterMap_concat {f : α → Option β} {a b : α} {c d : β} (ha : f a = some c)
    (hb : f b = some d) (init : List (Join × α)) (join : Join) :
    ∃ kept, filterMap f ⟨a, init ++ [(join, b)]⟩ = some ⟨c, kept ++ [(join, d)]⟩ := by
  refine ⟨init.filterMap fun p => (f p.2).map (p.1, ·), ?_⟩
  simp [filterMap, ha, hb, List.filterMap_append]

theorem exists_map_some {s : Joined α} {f : α → Option β}
    (h : ∀ a ∈ s.items, ∃ b, f a = some b) : ∃ r : Joined β, s.map f = r.map some := by
  obtain ⟨a, tail⟩ := s
  obtain ⟨b, hb⟩ := h a List.mem_cons_self
  have ht : ∃ kept : List (Join × β),
      (tail.map fun p => (p.1, f p.2)) = kept.map fun p => (p.1, some p.2) := by
    induction tail with
    | nil => exact ⟨[], rfl⟩
    | cons p tail ih =>
      obtain ⟨c, hc⟩ := h p.2 (by simp [items])
      have hrest : ∀ x ∈ items ⟨a, tail⟩, ∃ b, f x = some b := by
        intro x hx
        rcases List.mem_cons.1 hx with rfl | hx
        · exact ⟨b, hb⟩
        · exact h x (List.mem_cons_of_mem a (List.mem_cons_of_mem p.2 hx))
      obtain ⟨kept, hk⟩ := ih hrest
      exact ⟨(p.1, c) :: kept, by simp [hc, hk]⟩
  obtain ⟨kept, hk⟩ := ht
  exact ⟨⟨b, kept⟩, congrArg₂ Joined.mk hb hk⟩

theorem length_tail_of_map {s : Joined α} {f : α → Option β} {r : Joined β}
    (h : s.map f = r.map some) : s.tail.length = r.tail.length := by
  have := congrArg (fun q => q.tail.length) h
  simpa [map] using this

end Joined

/-! ## Confirmed searches -/

/-- The confirmation goes to the last segment. -/
theorem countJoins_append_mark (t : Text) : countJoins (t ++ Confirmation.mark) = countJoins t := by
  unfold countJoins
  rw [Joined.ofText_append apart_mark, Joined.whole_mark]
  obtain ⟨x, tail⟩ := Joined.ofText t
  rcases List.eq_nil_or_concat tail with rfl | ⟨init, ⟨join, y⟩, rfl⟩
  · rfl
  · rw [List.concat_eq_append, Joined.concat_append]
    simp

theorem Confirmed.body?_append_mark (t : Text) : body? (t ++ Confirmation.mark) = some t := by
  rw [body?, Text.trimEnd_of_solidEnd (Confirmation.solidEnd_append_mark t)]
  exact Text.dropEnding?_eq_some_iff.2 rfl

/-- The filter of a confirmed search of which every segment is a condition. -/
theorem Confirmed.read?_append_mark {t : Text} {base : Column} {s : Joined Condition}
    (hbase : (Condition.ofText? none catalog (Joined.ofText t).head).map (·.column) = some base)
    (hs : (Joined.ofText t).map (Condition.ofText? (some base) catalog) = s.map some)
    (htail : s.tail ≠ []) :
    read? catalog (t ++ Confirmation.mark) = Filter.ofJoined? s := by
  have hcount : countJoins (t ++ Confirmation.mark) ≠ 0 := by
    rw [countJoins_append_mark, countJoins, Joined.length_tail_of_map hs]
    exact mt List.length_eq_zero_iff.1 htail
  have hconditions : conditions? catalog (Joined.ofText t) = some s := by
    rw [conditions?, hbase]
    exact Joined.filterMap_eq_some hs
  rw [read?, if_neg hcount, body?_append_mark, Option.bind_some, hconditions, Option.bind_some,
    if_neg (by simpa using htail)]

end HashtagSearch
