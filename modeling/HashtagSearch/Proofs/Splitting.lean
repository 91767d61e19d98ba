import HashtagSearch.Confirmation
import Mathlib

/-!
# Cutting a text at its joins

What is appended to a text goes to its last segment, unless it continues or completes a
keyword. So a text that is put together of pieces that stand apart is cut piece by
piece, and a text without keywords is left whole.
-/

namespace HashtagSearch

/-! ## Keywords at the seam of two texts -/

theorem Text.toLower_cases (c : Char) :
    c.toLower = c ∨ c.isUpper = true ∧ c.toLower.isLower = true := by
  by_cases h : c.isUpper = true
  · refine .inr ⟨h, ?_⟩
    rw [Char.isLower_toLower_eq_isAlpha, Char.isAlpha, h, Bool.true_or]
  · exact .inl (Char.toLower_eq_of_not_isUpper h)

/-- A `#` is written in one way only. -/
theorem Text.toLower_eq_hash {c : Char} (h : '#'.toLower = c.toLower) : c = '#' := by
  change '#' = c.toLower at h
  rcases toLower_cases c with hl | ⟨-, hl⟩
  · rw [← hl, ← h]
  · rw [← h] at hl
    exact absurd hl (by decide)

theorem Text.dropWord?_of_head_ne {c : Char} (hc : c ≠ '#') (word t : Text) :
    dropWord? ('#' :: word) (c :: t) = none := by
  rw [dropWord?, if_neg fun h => hc (toLower_eq_hash h)]

theorem Text.isWordChar_of_toLower {w c : Char} (hw : w ∈ ['a', 'n', 'd', 'o', 'r'])
    (h : w.toLower = c.toLower) : Text.isWordChar c = true := by
  have hsmall : ∀ w ∈ ['a', 'n', 'd', 'o', 'r'],
      w.toLower ∈ ['a', 'n', 'd', 'o', 'r'] ∧ Text.isWordChar w = true := by
    intro w hw
    simp only [List.mem_cons, List.not_mem_nil, or_false] at hw
    rcases hw with rfl | rfl | rfl | rfl | rfl <;> decide
  have hc : c.toLower ∈ ['a', 'n', 'd', 'o', 'r'] := h ▸ (hsmall w hw).1
  rcases Text.toLower_cases c with hl | ⟨hu, -⟩
  · exact (hsmall c (hl ▸ hc)).2
  · simp [isWordChar, Char.isAlphanum, Char.isAlpha, hu]

/-- No keyword at the end of a text ends or begins to count when `u` is appended. -/
structure Apart (u : Text) : Prop where
  no_word : Text.startsWithWordChar u = false
  no_join : Join.read? u = none

namespace Join

theorem dropWord?_append {word : Text} (hw : ∀ w ∈ word, w ∈ ['a', 'n', 'd', 'o', 'r']) {u : Text}
    (hu : Text.startsWithWordChar u = false) (s : Text) :
    Text.dropWord? word (s ++ u) = (Text.dropWord? word s).map (· ++ u) := by
  induction word generalizing s with
  | nil => rfl
  | cons w word ih =>
    have hword : ∀ x ∈ word, x ∈ ['a', 'n', 'd', 'o', 'r'] :=
      fun x hx => hw x (List.mem_cons_of_mem w hx)
    cases s with
    | cons c s =>
      simp only [List.cons_append, Text.dropWord?]
      split
      · exact ih hword s
      · rfl
    | nil =>
      cases u with
      | nil => rfl
      | cons c u =>
        have hne : w.toLower ≠ c.toLower := by
          intro h
          have := Text.isWordChar_of_toLower (hw w List.mem_cons_self) h
          simp [Text.startsWithWordChar, this] at hu
        simp [Text.dropWord?, hne]

theorem mem_keyword {join : Join} : ∀ w ∈ join.keyword.toList, w ∈ ['a', 'n', 'd', 'o', 'r'] := by
  cases join <;> simp [keyword]

theorem read?_of_head_ne {c : Char} (hc : c ≠ '#') (t : Text) : read? (c :: t) = none := by
  simp only [read?, afterKeyword?, Text.dropWord?_of_head_ne hc, Option.map_none]

theorem afterKeyword?_cons_append {u : Text} (hu : Text.startsWithWordChar u = false) (join : Join)
    (c : Char) (s : Text) :
    join.afterKeyword? (c :: s ++ u) = (join.afterKeyword? (c :: s)).map (· ++ u) := by
  have hend (rest : Text) :
      Text.startsWithWordChar (rest ++ u) = Text.startsWithWordChar rest := by
    cases rest with
    | nil => exact hu
    | cons d rest => rfl
  simp only [afterKeyword?, Text.dropWord?, List.cons_append, dropWord?_append mem_keyword hu]
  by_cases hc : '#'.toLower = c.toLower
  · simp only [if_pos hc]
    cases Text.dropWord? join.keyword.toList s with
    | none => rfl
    | some rest =>
      simp only [Option.map_some, hend]
      split <;> rfl
  · simp only [if_neg hc, Option.map_none]

theorem read?_append {u : Text} (hu : Apart u) (s : Text) :
    read? (s ++ u) = (read? s).map fun (join, rest) => (join, rest ++ u) := by
  cases s with
  | nil => exact hu.no_join
  | cons c s =>
    simp only [read?, afterKeyword?_cons_append hu.no_word]
    cases and.afterKeyword? (c :: s) with
    | some rest => rfl
    | none => cases or.afterKeyword? (c :: s) <;> rfl

theorem read?_blank_append {g t : Text} (hg : ∀ c ∈ g, Text.isBlank c = true)
    (hr : read? t = none) : read? (g ++ t) = none := by
  cases g with
  | nil => exact hr
  | cons b g =>
    refine read?_of_head_ne ?_ (g ++ t)
    rintro rfl
    exact absurd (hg '#' List.mem_cons_self) (by decide)

theorem read?_keyword (join : Join) {rest : Text} (h : Text.startsWithWordChar rest = false) :
    read? ('#' :: join.keyword.toList ++ rest) = some (join, rest) := by
  cases join <;> simp [read?, afterKeyword?, keyword, Text.dropWord?, h]

end Join

theorem apart_nil : Apart [] := ⟨rfl, rfl⟩

theorem apart_space (t : Text) : Apart (' ' :: t) :=
  ⟨by rfl, Join.read?_of_head_ne (by decide) t⟩

theorem apart_trigger : Apart Confirmation.trigger := apart_space ['#']

theorem apart_mark : Apart Confirmation.mark := ⟨by rfl, by rfl⟩

namespace Joined

/-! ## Putting cut texts together -/

def continueWith (s : Joined Text) : Text → List (Join × Text) → Joined Text
  | x, [] => ⟨x ++ s.head, s.tail⟩
  | x, (join, y) :: rest => (continueWith s y rest).cons x join

/-- The two sequences one after the other: the last text of the first and the first text
of the second are one. -/
def append (r s : Joined Text) : Joined Text := continueWith s r.head r.tail

theorem single_append (x : Text) (s : Joined Text) :
    append ⟨x, []⟩ s = ⟨x ++ s.head, s.tail⟩ := rfl

theorem cons_append (x : Text) (join : Join) (r s : Joined Text) :
    (r.cons x join).append s = (r.append s).cons x join := rfl

theorem prependChar_append (c : Char) (r s : Joined Text) :
    (r.prependChar c).append s = (r.append s).prependChar c := by
  obtain ⟨x, tail⟩ := r
  cases tail <;> rfl

theorem concat_append (x : Text) (init : List (Join × Text)) (join : Join) (y : Text)
    (s : Joined Text) : append ⟨x, init ++ [(join, y)]⟩ s =
      ⟨x, init ++ (join, y ++ s.head) :: s.tail⟩ := by
  induction init generalizing x with
  | nil => rfl
  | cons p init ih =>
    obtain ⟨j, z⟩ := p
    exact congrArg (cons x j) (ih z)

/-! ## Cutting -/

theorem ofTextAfter_nil : ofTextAfter [] = ⟨[], []⟩ := by
  rw [ofTextAfter]
  rfl

theorem ofTextAfter_of_join {t rest : Text} {join : Join}
    (h : readJoin? t = some (join, rest)) : ofTextAfter t = (ofTextAfter rest).cons [] join := by
  rw [ofTextAfter]
  split
  · next h' =>
    cases h.symm.trans h'
    rfl
  · next h' => cases h.symm.trans h'

theorem ofTextAfter_cons {c : Char} {t : Text} (h : readJoin? (c :: t) = none) :
    ofTextAfter (c :: t) = (ofTextAfter t).prependChar c := by
  rw [ofTextAfter]
  split
  · next h' => cases h.symm.trans h'
  · rfl

theorem readJoin?_append {u : Text} (hu : Apart u) (c : Char) (s : Text) :
    readJoin? (c :: s ++ u) = (readJoin? (c :: s)).map fun (join, rest) => (join, rest ++ u) := by
  simp only [List.cons_append, readJoin?]
  split
  · exact Join.read?_append hu s
  · rfl

/-- A text that stands apart is cut by itself. -/
theorem ofTextAfter_append {u : Text} (hu : Apart u) (s : Text) :
    ofTextAfter (s ++ u) = (ofTextAfter s).append (ofTextAfter u) := by
  induction s using ofTextAfter.induct with
  | case1 s join rest hr ih =>
    cases s with
    | nil => cases hr
    | cons c s =>
      have hru : readJoin? (c :: s ++ u) = some (join, rest ++ u) := by
        rw [readJoin?_append hu, hr]
        rfl
      rw [ofTextAfter_of_join hru, ofTextAfter_of_join hr, cons_append, ih]
  | case2 _ => simp [ofTextAfter_nil, single_append]
  | case3 c s hr ih =>
    have hru : readJoin? (c :: (s ++ u)) = none := by
      rw [← List.cons_append, readJoin?_append hu, hr]
      rfl
    rw [List.cons_append, ofTextAfter_cons hru, ofTextAfter_cons hr, prependChar_append, ih]

theorem ofText_append {u : Text} (hu : Apart u) (s : Text) :
    ofText (s ++ u) = (ofText s).append (ofTextAfter u) := by
  unfold ofText
  rw [Join.read?_append hu]
  cases Join.read? s with
  | none => exact ofTextAfter_append hu s
  | some p => exact congrArg (cons [] p.1) (ofTextAfter_append hu p.2)

/-! ## Texts without keywords -/

/-- No keyword follows a blank in the text, so that it is not cut. -/
def Whole (t : Text) : Prop := ofTextAfter t = ⟨t, []⟩

theorem whole_nil : Whole [] := ofTextAfter_nil

theorem Whole.cons {c : Char} {t : Text} (h : Whole t) (hr : readJoin? (c :: t) = none) :
    Whole (c :: t) := by
  unfold Whole at h ⊢
  rw [ofTextAfter_cons hr, h]
  rfl

theorem Whole.append {s u : Text} (hs : Whole s) (hu : Apart u) (hw : Whole u) :
    Whole (s ++ u) := by
  unfold Whole at hs hw ⊢
  rw [ofTextAfter_append hu, hs, hw]
  rfl

theorem whole_of_no_hash {t : Text} (h : '#' ∉ t) : Whole t := by
  induction t with
  | nil => exact whole_nil
  | cons c t ih =>
    have ht : '#' ∉ t := fun ht => h (List.mem_cons_of_mem c ht)
    refine (ih ht).cons ?_
    have hj : Join.read? t = none := by
      cases t with
      | nil => rfl
      | cons d t => exact Join.read?_of_head_ne (fun hd => ht (hd ▸ List.mem_cons_self)) t
    simp [readJoin?, hj]

theorem whole_of_no_blank {t : Text} (h : ∀ c ∈ t, Text.isBlank c = false) : Whole t := by
  induction t with
  | nil => exact whole_nil
  | cons c t ih =>
    refine (ih fun d hd => h d (List.mem_cons_of_mem c hd)).cons ?_
    simp [readJoin?, h c List.mem_cons_self]

/-- Blanks in front of a text without keywords do not bring one about. -/
theorem Whole.blank_append {g t : Text} (hg : ∀ c ∈ g, Text.isBlank c = true) (ht : Whole t)
    (hr : Join.read? t = none) : Whole (g ++ t) := by
  induction g with
  | nil => exact ht
  | cons b g ih =>
    obtain ⟨-, hg⟩ := List.forall_mem_cons.1 hg
    apply (ih hg).cons
    simp [readJoin?, Join.read?_blank_append hg hr]

theorem whole_of_blank {g : Text} (hg : ∀ c ∈ g, Text.isBlank c = true) : Whole g := by
  rw [← List.append_nil g]
  exact whole_nil.blank_append hg rfl

theorem ofText_of_whole {t : Text} (h : Whole t) (hr : Join.read? t = none) :
    ofText t = ⟨t, []⟩ := by
  rw [ofText, hr]
  exact h

theorem countJoins_of_whole {t : Text} (h : Whole t) (hr : Join.read? t = none) :
    countJoins t = 0 := by
  rw [countJoins, ofText_of_whole h hr]
  rfl

theorem whole_mark : Whole Confirmation.mark :=
  whole_of_no_blank (by simp [Confirmation.mark, Text.isBlank])

theorem whole_trigger : Whole Confirmation.trigger :=
  Whole.cons (whole_of_no_blank (by simp [Text.isBlank])) rfl

end Joined

end HashtagSearch
