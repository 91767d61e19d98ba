import HashtagSearch.Confirmation
import HashtagSearch.Proofs.Segments
import HashtagSearch.Proofs.Text.Words

/-!
# Taking off marks

Marks are taken off the end of a value whether it is looked at by itself or behind the
names of its segment. Nothing else is taken off but the blanks around them, and a value that
does not end with `#` is what is left however its marks are spaced. A `#` that is left over at
the end of a value is a tag in it, so that a value without tags shows how often a trigger was
typed.
-/

namespace HashtagSearch

open Text

namespace Confirmation

/-- One of the two marks that are taken off. -/
def IsMark (e : Text) : Prop := e = trigger ∨ e = mark

/-- Blanks, and behind them a mark that may be left out. -/
inductive Spaced (e : Text) : Text → Prop
  | blanks {gap : Text} : AllBlank gap → Spaced e gap
  | marked {gap : Text} : AllBlank gap → Spaced e (gap ++ e)

variable {e : Text}

theorem IsMark.solidEnd (he : IsMark e) : SolidEnd e := by
  rcases he with rfl | rfl
  · exact ⟨[' '], '#', rfl, by decide⟩
  · exact ⟨['#'], '#', rfl, by decide⟩

theorem IsMark.getLast?_eq (he : IsMark e) {t : Text} (h : e <:+ t) : t.getLast? = some '#' := by
  obtain ⟨z, rfl⟩ := h
  rcases he with rfl | rfl <;> simp [trigger, mark]

theorem IsMark.valueStart_left (he : IsMark e) {z : Text} (h : ValueStart (z ++ e)) :
    ValueStart z := by
  obtain ⟨c, r, hcr, hb, hc⟩ := h
  cases z with
  | cons d z =>
    obtain ⟨rfl, -⟩ := List.cons.inj hcr
    exact ⟨d, z, rfl, hb, hc⟩
  | nil =>
    rcases he with rfl | rfl
    · obtain ⟨rfl, -⟩ := List.cons.inj hcr
      exact absurd hb (by decide)
    · exact absurd (List.cons.inj hcr).1.symm hc

/-- A mark at the end of a text that ends with a value is at the end of the value. -/
theorem IsMark.split (he : IsMark e) {p x z : Text} (hx : ValueStart x) (h : p ++ x = z ++ e) :
    ∃ z', z = p ++ z' ∧ x = z' ++ e := by
  obtain ⟨c, r, rfl, -, hc⟩ := hx
  obtain ⟨a, rfl, ha⟩ | ⟨b, rfl, hb⟩ := List.append_eq_append_iff.1 h
  · exact ⟨a, rfl, ha⟩
  · have hlast (w : Text) (hw : w ++ c :: r = ['#']) : False := by
      cases w with
      | nil => exact hc (List.cons.inj hw).1
      | cons d w => simp at hw
    cases b with
    | nil => exact ⟨[], by simp, hb.symm⟩
    | cons d b =>
      rcases he with rfl | rfl <;> exact (hlast b (List.cons.inj hb).2.symm).elim

theorem IsMark.suffix_append_iff (he : IsMark e) (p : Text) {x : Text} (hx : ValueStart x) :
    e <:+ p ++ x ↔ e <:+ x := by
  constructor
  · rintro ⟨z, hz⟩
    obtain ⟨z', -, hx'⟩ := he.split hx hz.symm
    exact ⟨z', hx'.symm⟩
  · rintro ⟨z, rfl⟩
    exact ⟨p ++ z, List.append_assoc p z e⟩

theorem dropEnding_of_suffix {z : Text} : dropEnding e (z ++ e) = trim z := by
  rw [dropEnding, dropEnding?_eq_some_iff.2 rfl]

theorem dropEnding_of_not_suffix {t : Text} (h : ¬ e <:+ t) : dropEnding e t = t := by
  rw [dropEnding, dropEnding?_eq_none_iff.2 h]

theorem trim_dropEnding {t : Text} (h : trim t = t) : trim (dropEnding e t) = dropEnding e t := by
  by_cases hs : e <:+ t
  · obtain ⟨z, rfl⟩ := hs
    rw [dropEnding_of_suffix, trim_trim]
  · rw [dropEnding_of_not_suffix hs, h]

/-- Nothing but a mark and the blanks in front of it is taken off a trimmed text. -/
theorem exists_spaced_dropEnding {t : Text} (h : trim t = t) :
    ∃ m, Spaced e m ∧ t = dropEnding e t ++ m := by
  by_cases hs : e <:+ t
  · obtain ⟨z, rfl⟩ := hs
    obtain ⟨gap, hgap, hz⟩ := exists_trimEnd_append z
    refine ⟨gap ++ e, .marked hgap, ?_⟩
    rw [dropEnding_of_suffix, ← trimEnd_of_front h, ← List.append_assoc, hz]
  · exact ⟨[], .blanks nofun, by rw [dropEnding_of_not_suffix hs, List.append_nil]⟩

theorem dropEnding_isPrefix {t : Text} (h : trim t = t) : dropEnding e t <+: t := by
  obtain ⟨m, -, hm⟩ := exists_spaced_dropEnding h
  exact ⟨m, hm.symm⟩

/-- A mark is taken off again with the blanks in front of it. -/
theorem dropEnding_trim_append (he : IsMark e) {s m : Text} (hs : SolidStart s) (hm : Spaced e m)
    (hno : ¬ e <:+ trim s) : dropEnding e (trim (s ++ m)) = trim s := by
  cases hm with
  | blanks hgap => rw [trim_append_blank hgap, dropEnding_of_not_suffix hno]
  | @marked gap hgap =>
    have htrim : trim (s ++ (gap ++ e)) = s ++ gap ++ e := by
      rw [← List.append_assoc]
      exact trim_of_solid ((hs.append gap).append e) (he.solidEnd.append _)
    rw [htrim, dropEnding_of_suffix, trim_append_blank hgap]

theorem mem_of_mem_dropEnding {t : Text} {c : Char} (h : c ∈ dropEnding e t) : c ∈ t := by
  by_cases hs : e <:+ t
  · obtain ⟨z, rfl⟩ := hs
    rw [dropEnding_of_suffix] at h
    exact List.mem_append_left e (mem_of_mem_trim h)
  · rwa [dropEnding_of_not_suffix hs] at h

theorem dropEnding_append (he : IsMark e) {p x : Text} (hp : SolidStart p) (hx : ValueStart x) :
    dropEnding e (p ++ x) = p ++ dropEnding e x ∧ ValueStart (dropEnding e x) := by
  by_cases hs : e <:+ x
  · obtain ⟨z, rfl⟩ := hs
    have hz := he.valueStart_left hx
    rw [← List.append_assoc, dropEnding_of_suffix, dropEnding_of_suffix,
      trim_append hp hz.solidStart]
    exact ⟨rfl, hz.trim⟩
  · rw [dropEnding_of_not_suffix hs,
      dropEnding_of_not_suffix (mt (he.suffix_append_iff p hx).1 hs)]
    exact ⟨rfl, hx⟩

@[simp] theorem strip_trim (t : Text) : strip (trim t) = strip t := by
  rw [strip, trim_trim, ← strip]

@[simp] theorem trim_strip (t : Text) : trim (strip t) = strip t :=
  trim_dropEnding (trim_dropEnding (trim_trim t))

theorem strip_isPrefix (t : Text) : strip t <+: trim t :=
  (dropEnding_isPrefix (trim_dropEnding (trim_trim t))).trans (dropEnding_isPrefix (trim_trim t))

theorem mem_of_mem_strip {t : Text} {c : Char} (h : c ∈ strip t) : c ∈ t :=
  mem_of_mem_trim (mem_of_mem_dropEnding (mem_of_mem_dropEnding h))

theorem strip_append {p x : Text} (hp : SolidStart p) (hx : ValueStart x) :
    strip (p ++ x) = p ++ strip x ∧ ValueStart (strip x) := by
  obtain ⟨h₁, hx₁⟩ := dropEnding_append (.inl rfl) hp hx.trim
  obtain ⟨h₂, hx₂⟩ := dropEnding_append (.inr rfl) hp hx₁
  rw [strip, trim_append hp hx.solidStart, h₁, h₂, strip]
  exact ⟨rfl, hx₂⟩

theorem IsMark.not_suffix (he : IsMark e) {c : Char} (hc : c ≠ '#') (r : Text) :
    ¬ e <:+ r ++ [c] := by
  intro h
  have hlast := he.getLast?_eq h
  rw [List.getLast?_concat] at hlast
  exact hc (Option.some.inj hlast)

theorem strip_of_end {r : Text} {c : Char} (hs : SolidStart (r ++ [c])) (hb : isBlank c = false)
    (hc : c ≠ '#') : strip (r ++ [c]) = r ++ [c] := by
  rw [strip, trim_of_solid hs ⟨r, c, rfl, hb⟩,
    dropEnding_of_not_suffix (IsMark.not_suffix (.inl rfl) hc r),
    dropEnding_of_not_suffix (IsMark.not_suffix (.inr rfl) hc r)]

/-! ## Tags -/

theorem holdsTag_append_blank {b : Char} (hb : isBlank b = true) (s t : Text) (inRange : Bool) :
    holdsTag (s ++ b :: t) inRange = (holdsTag s inRange || holdsTag t inRange) := by
  rw [holdsTag, words_append_blank hb, List.any_append, ← holdsTag, ← holdsTag]

theorem holdsTag_of_no_hash {t : Text} (h : '#' ∉ t) (inRange : Bool) :
    holdsTag t inRange = false := by
  rw [holdsTag, List.any_eq_false]
  intro w hw htag
  have hhead : w.head? = some '#' := by
    simp only [Bool.and_eq_true, beq_iff_eq] at htag
    exact htag.1
  exact h (mem_of_mem_words hw (List.mem_of_mem_head? hhead))

theorem holdsTag_of_trigger {v : Text} (h : trigger <:+ v) (inRange : Bool) :
    holdsTag v inRange = true := by
  obtain ⟨z, rfl⟩ := h
  have htag : holdsTag ['#'] inRange = true := by cases inRange <;> rfl
  rw [trigger, holdsTag_append_blank (by decide), htag, Bool.or_true]

theorem not_mark_of_trigger {t : Text} (h : trigger <:+ t) : ¬ mark <:+ t := by
  rintro ⟨y, rfl⟩
  obtain ⟨z, hz⟩ := h
  have := List.append_inj_right' hz rfl
  exact absurd this (by decide)

theorem solidEnd_append_mark (t : Text) : SolidEnd (t ++ mark) :=
  (IsMark.solidEnd (.inr rfl)).append t

theorem trim_append_mark (t : Text) : trim (t ++ mark) = trimStart t ++ mark := by
  have hstart : SolidStart mark := ⟨'#', ['#'], rfl, by decide⟩
  rw [trim, trimStart_append_of_solidStart hstart]
  exact trimEnd_of_solidEnd (solidEnd_append_mark _)

theorem isConfirmed_append_mark (t : Text) : isConfirmed (t ++ mark) = true := by
  rw [isConfirmed, trimEnd_of_solidEnd (solidEnd_append_mark t)]
  exact List.isSuffixOf_iff_suffix.2 (List.suffix_append t mark)

/-- The confirmation is taken off, and no trigger in front of it. -/
theorem strip_append_mark (t : Text) : strip (t ++ mark) = trim t := by
  have hmark : mark <:+ trimStart t ++ mark := List.suffix_append _ mark
  have htrigger : ¬ trigger <:+ trimStart t ++ mark := fun ht => not_mark_of_trigger ht hmark
  rw [strip, trim_append_mark, dropEnding_of_not_suffix htrigger, dropEnding_of_suffix,
    trim_trimStart]

/-- One more trigger is taken off again, and of the text in front of it no second one. -/
theorem strip_append_trigger {t : Text} (h : trim t ≠ []) :
    strip (t ++ trigger) = if trigger <:+ trim t then trim t else strip t := by
  have hs : trimStart t ≠ [] := trimStart_ne_nil h
  have htrim : trim (t ++ trigger) = trimStart t ++ trigger := by
    rw [trim, trimStart_append hs]
    exact trimEnd_of_solidEnd ((IsMark.solidEnd (.inl rfl)).append _)
  rw [strip, htrim, dropEnding_of_suffix, trim, trimStart_of_solidStart (solidStart_trimStart hs),
    ← trim]
  split
  · next ht => exact dropEnding_of_not_suffix (not_mark_of_trigger ht)
  · next ht => rw [strip, dropEnding_of_not_suffix ht]

/-! ## Marks and the blanks around them -/

/-- A value that does not end with `#` has no trigger at its end, nor has it one with a
confirmation. -/
theorem not_trigger_of_spaced {t m : Text} (ht : trim t = t) (hlast : t.getLast? ≠ some '#')
    (hm : Spaced mark m) : ¬ trigger <:+ trim (t ++ m) := by
  cases hm with
  | blanks hgap =>
    rw [trim_append_blank hgap, ht]
    exact fun h => hlast (IsMark.getLast?_eq (.inl rfl) h)
  | @marked gap hgap =>
    rw [← List.append_assoc, trim_append_mark]
    exact fun h => not_mark_of_trigger h (List.suffix_append _ mark)

/-- Only marks and the blanks around them are taken off: what is left of a text is trimmed, and
behind it the trimmed text has at most a confirmation and then at most a trigger, each with blanks
in front. All of these are taken off: they can be put behind a trimmed text that does not end with
`#`, with blanks at the end, and the text is what is left. -/
theorem strip_removes_only_marks :
    (∀ text, trim (strip text) = strip text ∧ ∃ confirmation ask,
      Spaced mark confirmation ∧ Spaced trigger ask ∧
        trim text = strip text ++ (confirmation ++ ask)) ∧
    ∀ t confirmation ask gap, t ≠ [] → trim t = t → t.getLast? ≠ some '#' →
      Spaced mark confirmation → Spaced trigger ask → AllBlank gap →
        strip (t ++ (confirmation ++ (ask ++ gap))) = t := by
  constructor
  · intro text
    obtain ⟨ask, hask, htrigger⟩ := exists_spaced_dropEnding (e := trigger) (trim_trim text)
    obtain ⟨confirmation, hconfirmation, hmark⟩ :=
      exists_spaced_dropEnding (e := mark) (trim_dropEnding (e := trigger) (trim_trim text))
    refine ⟨trim_strip text, confirmation, ask, hconfirmation, hask, ?_⟩
    calc trim text = dropEnding trigger (trim text) ++ ask := htrigger
      _ = strip text ++ confirmation ++ ask := by rw [strip, ← hmark]
      _ = strip text ++ (confirmation ++ ask) := List.append_assoc _ _ _
  · intro t confirmation ask gap hne htrim hlast hconfirmation hask hgap
    have hs : SolidStart t := (solid_of_trim_eq hne htrim).1
    have hmark : ¬ mark <:+ trim t := by
      rw [htrim]
      exact fun h => hlast (IsMark.getLast?_eq (.inr rfl) h)
    have hend : trim (t ++ (confirmation ++ (ask ++ gap))) = trim (t ++ confirmation ++ ask) := by
      rw [← List.append_assoc, ← List.append_assoc, trim_append_blank hgap]
    -- The trigger goes first, since the confirmation stands in front of it.
    calc strip (t ++ (confirmation ++ (ask ++ gap)))
        = dropEnding mark (dropEnding trigger (trim (t ++ confirmation ++ ask))) := by
          rw [strip, hend]
      _ = dropEnding mark (trim (t ++ confirmation)) := by
          rw [dropEnding_trim_append (.inl rfl) (hs.append _) hask
            (not_trigger_of_spaced htrim hlast hconfirmation)]
      _ = t := by rw [dropEnding_trim_append (.inr rfl) hs hconfirmation hmark, htrim]

/-- A confirmation behind a wide blank, a trigger behind a tab, and the end of a line. -/
theorem strip_removes_only_marks_wide :
    trim "600".toList = "600".toList ∧ "600".toList.getLast? ≠ some '#' ∧
      strip "600\u3000##\t #\n".toList = "600".toList := by
  obtain ⟨-, hrecover⟩ := strip_removes_only_marks
  have htrim : trim "600".toList = "600".toList := by decide
  have hlast : "600".toList.getLast? ≠ some '#' := by decide
  exact ⟨htrim, hlast, hrecover "600".toList ("\u3000".toList ++ mark) ("\t".toList ++ trigger)
    ['\n'] (by decide) htrim hlast (.marked (by decide)) (.marked (by decide)) (by decide)⟩

/-- Of two triggers one is left over, and the confirmation in front of it. -/
example : strip "600## # #".toList = "600## #".toList := by decide

end Confirmation

namespace Segment

open Confirmation

theorem FitsValue.strip {v : Text} (h : FitsValue v) : FitsValue (strip v) :=
  ⟨(strip_append ⟨'#', [], rfl, by decide⟩ h.start).2, fun hn => h.oneLine (mem_of_mem_strip hn)⟩

theorem FitsValue.append_mark {v : Text} (h : FitsValue v) : FitsValue (v ++ mark) := by
  obtain ⟨c, r, rfl, hblank, hne⟩ := h.start
  exact ⟨⟨c, r ++ mark, rfl, hblank, hne⟩, by simpa [mark] using h.oneLine⟩

/-- Taking the marks off a segment takes them off its value. -/
theorem ofText_strip {t v : Text} (h : (ofText (trim t)).value? = some v) :
    ofText (strip t) = (ofText (trim t)).withValue (strip v) := by
  obtain ⟨front, hf, ht, hv, hall⟩ := exists_front h
  rw [← strip_trim, ht, (strip_append hf hv.start).1, ← ht]
  exact (hall _ hv.strip.start).trans (if_neg hv.strip.oneLine)

end Segment

end HashtagSearch
