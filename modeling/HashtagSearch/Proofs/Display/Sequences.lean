import HashtagSearch.Display.Table
import HashtagSearch.Proofs.Text.Parts

/-!
# Sequences for renditions

`Text.withoutStyles` reads what a terminal is sent and takes out the sequences that select
renditions. What it leaves of a text that is put together is put together of what it leaves of the
parts. A part is kept as it is if it holds no escape, with which sequences start; padding, cutting
and joining texts bring none in.
-/

namespace HashtagSearch

namespace Text

/-! ## Taking out the sequences -/

/-- The characters between the bracket of a sequence and its final letter. -/
def isParameter (c : Char) : Bool := c.isDigit || c == ';' || c == ':'

/-- What follows a sequence that selects renditions at the head of the text. -/
def afterSequence? : Text → Option Text
  | '\x1b' :: '[' :: t =>
    match t.dropWhile isParameter with
    | 'm' :: rest => some rest
    | _ => none
  | _ => none

theorem length_afterSequence? {t rest : Text} (h : afterSequence? t = some rest) :
    rest.length < t.length := by
  unfold afterSequence? at h
  split at h
  · next t =>
    split at h
    · next rest' hdrop =>
      cases h
      have hlength := (List.dropWhile_suffix (l := t) isParameter).length_le
      rw [hdrop, List.length_cons] at hlength
      simp only [List.length_cons]
      omega
    · cases h
  · cases h

/-- The text without the sequences that select renditions. -/
def withoutStyles : Text → Text
  | [] => []
  | c :: t =>
    match _h : afterSequence? (c :: t) with
    | some rest => withoutStyles rest
    | none => c :: withoutStyles t
termination_by t => t.length
decreasing_by
  · exact length_afterSequence? _h
  · exact Nat.lt_succ_self _

@[simp] theorem withoutStyles_nil : withoutStyles [] = [] := by rw [withoutStyles]

/-- No control sequence starts in the text. -/
def Unescaped (t : Text) : Prop := '\x1b' ∉ t

instance (t : Text) : Decidable t.Unescaped := inferInstanceAs (Decidable ('\x1b' ∉ t))

variable {s t : Text}

@[simp] theorem unescaped_nil : Unescaped [] := List.not_mem_nil

@[simp] theorem unescaped_cons {c : Char} : Unescaped (c :: t) ↔ '\x1b' ≠ c ∧ Unescaped t := by
  simp [Unescaped]

@[simp] theorem unescaped_append : Unescaped (s ++ t) ↔ Unescaped s ∧ Unescaped t := by
  simp [Unescaped]

theorem Unescaped.subset (ht : Unescaped t) (h : s ⊆ t) : Unescaped s := fun hmem => ht (h hmem)

theorem withoutStyles_append (h : Unescaped s) :
    withoutStyles (s ++ t) = s ++ withoutStyles t := by
  induction s with
  | nil => rfl
  | cons c s ih =>
    obtain ⟨hc, hs⟩ := unescaped_cons.1 h
    have hnone : afterSequence? (c :: (s ++ t)) = none := by
      unfold afterSequence?
      split
      · next heq => exact absurd (List.cons.inj heq).1.symm hc
      · rfl
    rw [List.cons_append, withoutStyles]
    split
    · next rest hsome =>
      rw [hnone] at hsome
      cases hsome
    · rw [ih hs, List.cons_append]

theorem isDigit_of_mem_ofNat {n : Nat} {c : Char} (h : c ∈ ofNat n) : c.isDigit = true :=
  Nat.isDigit_of_mem_toDigits (by decide) (by decide) h

theorem withoutStyles_sequence (n : Nat) :
    withoutStyles (Style.sequence n ++ t) = withoutStyles t := by
  have hafter : afterSequence? ('\x1b' :: '[' :: (ofNat n ++ 'm' :: t)) = some t := by
    have hdigits : ∀ c ∈ ofNat n, isParameter c = true := by
      intro c hc
      simp [isParameter, isDigit_of_mem_ofNat hc]
    rw [afterSequence?, List.dropWhile_append_of_pos hdigits]
    rfl
  have htext : Style.sequence n ++ t = '\x1b' :: '[' :: (ofNat n ++ 'm' :: t) := by
    simp [Style.sequence]
  rw [htext, withoutStyles]
  split
  · next rest hsome =>
    rw [hafter] at hsome
    cases hsome
    rfl
  · next hnone =>
    rw [hafter] at hnone
    cases hnone

/-! ## What is shown of a text -/

/-- Without the sequences `t` is left of `s`, whatever follows. -/
def Shows (s t : Text) : Prop := ∀ u, withoutStyles (s ++ u) = t ++ withoutStyles u

variable {s' t' : Text}

theorem Shows.withoutStyles_eq (h : Shows s t) : withoutStyles s = t := by
  simpa using h []

theorem Unescaped.shows (h : Unescaped t) : Shows t t := fun _ => withoutStyles_append h

theorem shows_sequence (n : Nat) : Shows (Style.sequence n) [] := fun _ => withoutStyles_sequence n

theorem Shows.append (h : Shows s t) (h' : Shows s' t') : Shows (s ++ s') (t ++ t') := by
  intro u
  rw [List.append_assoc, List.append_assoc, h, h']

theorem Shows.wrap (h : Shows s t) (style : Style) : Shows (style.wrap s) t := by
  have hwrapped := ((shows_sequence style.start).append h).append (shows_sequence style.stop)
  rwa [List.nil_append, List.append_nil] at hwrapped

theorem Shows.line (h : Shows s t) : Shows (Table.line s) (Table.line t) :=
  h.append (Unescaped.shows (by decide))

theorem shows_flatMap {α : Type} {items : List α} {f g : α → Text}
    (h : ∀ a ∈ items, Shows (f a) (g a)) : Shows (items.flatMap f) (items.flatMap g) := by
  induction items with
  | nil => exact unescaped_nil.shows
  | cons a items ih =>
    obtain ⟨ha, hitems⟩ := List.forall_mem_cons.1 h
    rw [List.flatMap_cons, List.flatMap_cons]
    exact ha.append (ih hitems)

theorem shows_joinWith {separator : Text} (hs : Unescaped separator) {ss ts : List Text}
    (h : List.Forall₂ Shows ss ts) : Shows (joinWith separator ss) (joinWith separator ts) := by
  induction h with
  | nil => exact unescaped_nil.shows
  | @cons s t ss ts hst hrest ih =>
    cases hrest with
    | nil => simpa [joinWith] using hst
    | cons _ _ =>
      rw [joinWith, joinWith, List.intercalate_cons_cons, List.intercalate_cons_cons]
      exact (hst.append hs.shows).append ih

/-! ## Texts put together -/

variable {separator : Text}

@[simp] theorem unescaped_ofNat (n : Nat) : Unescaped (ofNat n) := by
  intro h
  have hdigit := isDigit_of_mem_ofNat h
  revert hdigit
  decide

@[simp] theorem unescaped_replicate {c : Char} {n : Nat} (hc : '\x1b' ≠ c) :
    Unescaped (List.replicate n c) :=
  fun h => hc (List.eq_of_mem_replicate h)

@[simp] theorem unescaped_padRight {width : Nat} : Unescaped (padRight width t) ↔ Unescaped t := by
  simp [padRight]

theorem unescaped_joinWith {ts : List Text} (hs : Unescaped separator)
    (h : ∀ t ∈ ts, Unescaped t) : Unescaped (joinWith separator ts) := by
  induction ts with
  | nil => exact unescaped_nil
  | cons t ts ih =>
    obtain ⟨ht, hts⟩ := List.forall_mem_cons.1 h
    cases ts with
    | nil => simpa [joinWith] using ht
    | cons u ts =>
      have hrest : Unescaped (joinWith separator (u :: ts)) := ih hts
      simp only [joinWith, List.intercalate_cons_cons, unescaped_append]
      exact ⟨⟨ht, hs⟩, hrest⟩

theorem unescaped_flatMap {α : Type} {items : List α} {f : α → Text}
    (h : ∀ a ∈ items, Unescaped (f a)) : Unescaped (items.flatMap f) := by
  intro hmem
  obtain ⟨a, ha, hmem⟩ := List.mem_flatMap.1 hmem
  exact h a ha hmem

theorem Unescaped.trimEnd (h : Unescaped t) : Unescaped (trimEnd t) :=
  h.subset (trimEnd_isPrefix t).subset

end Text

namespace Table

open Text

variable {t : Text}

theorem unescaped_clip (width : Nat) (h : t.Unescaped) : (clip width t).Unescaped := by
  unfold clip
  split
  · exact h
  · rw [unescaped_append]
    exact ⟨h.subset (List.take_subset _ _), by decide⟩

theorem unescaped_row (widths : List Nat) {cells : List Text} (h : ∀ t ∈ cells, t.Unescaped) :
    (row widths cells).Unescaped := by
  apply unescaped_joinWith (by decide)
  induction cells generalizing widths with
  | nil => simp
  | cons t cells ih =>
    cases widths with
    | nil => simp
    | cons width widths =>
      obtain ⟨ht, hcells⟩ := List.forall_mem_cons.1 h
      exact List.forall_mem_cons.2 ⟨unescaped_padRight.2 ht, ih widths hcells⟩

@[simp] theorem unescaped_line : (line t).Unescaped ↔ t.Unescaped := by
  simp [line]

end Table

end HashtagSearch
