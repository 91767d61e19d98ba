import HashtagSearch.Text.Basic

/-!
# Words of a text

A text can be cut at any blank: the words on both sides are those of the whole text.
Words hold only characters of the text.
-/

namespace HashtagSearch.Text

variable {b c d : Char}

@[simp] theorem words_nil : words [] = [] := rfl

theorem words_cons_of_blank (hc : isBlank c = true) (t : Text) : words (c :: t) = words t :=
  if_pos hc

theorem words_cons_of_not_blank (hc : isBlank c = false) (t : Text) : words (c :: t) =
    match t.head?, words t with
    | some d, w :: ws => if isBlank d then [c] :: w :: ws else (c :: w) :: ws
    | _, ws => [c] :: ws :=
  if_neg (Bool.eq_false_iff.1 hc)

theorem words_singleton (hc : isBlank c = false) : words [c] = [[c]] :=
  words_cons_of_not_blank hc []

theorem words_cons_blank (hc : isBlank c = false) (hb : isBlank b = true) (t : Text) :
    words (c :: b :: t) = [c] :: words t := by
  rw [words_cons_of_not_blank hc, words_cons_of_blank hb]
  cases ht : words t <;> simp [hb]

theorem words_cons_ne_nil (hc : isBlank c = false) (t : Text) : words (c :: t) ≠ [] := by
  rw [words_cons_of_not_blank hc]
  split
  · split <;> simp
  · simp

theorem words_cons_cons (hc : isBlank c = false) (hd : isBlank d = false) (t : Text) :
    words (c :: d :: t) = (words (d :: t)).modifyHead (c :: ·) := by
  obtain ⟨w, ws, hw⟩ := List.exists_cons_of_ne_nil (words_cons_ne_nil hd t)
  rw [words_cons_of_not_blank hc, hw]
  simp [hd]

theorem words_append_blank (hb : isBlank b = true) (s t : Text) :
    words (s ++ b :: t) = words s ++ words t := by
  induction s with
  | nil => simp [words_cons_of_blank hb]
  | cons c s ih =>
    cases hc : isBlank c with
    | true => simp [words_cons_of_blank hc, ih]
    | false =>
      cases s with
      | nil => simp [words_cons_blank hc hb, words_singleton hc]
      | cons d s =>
        cases hd : isBlank d with
        | true =>
          simp only [List.cons_append, words_cons_of_blank hd] at ih ⊢
          simp [words_cons_blank hc hd, ih]
        | false =>
          obtain ⟨w, ws, hw⟩ := List.exists_cons_of_ne_nil (words_cons_ne_nil hd s)
          simp only [List.cons_append] at ih ⊢
          simp [words_cons_cons hc hd, ih, hw]

theorem words_of_no_blank {w : Text} (hne : w ≠ []) (h : ∀ c ∈ w, isBlank c = false) :
    words w = [w] := by
  induction w with
  | nil => exact absurd rfl hne
  | cons c w ih =>
    obtain ⟨hc, hw⟩ := List.forall_mem_cons.1 h
    cases w with
    | nil => exact words_singleton hc
    | cons d w =>
      have hd : isBlank d = false := hw d List.mem_cons_self
      rw [words_cons_cons hc hd, ih (List.cons_ne_nil d w) hw]
      rfl

theorem mem_of_mem_words {w t : Text} (h : w ∈ words t) (hc : c ∈ w) : c ∈ t := by
  induction t generalizing w with
  | nil => simp at h
  | cons d t ih =>
    cases hd : isBlank d with
    | true =>
      rw [words_cons_of_blank hd] at h
      exact List.mem_cons_of_mem d (ih h hc)
    | false =>
      cases t with
      | nil =>
        rw [words_singleton hd, List.mem_singleton] at h
        exact h ▸ hc
      | cons e t =>
        cases he : isBlank e with
        | true =>
          rw [words_cons_blank hd he] at h
          rw [words_cons_of_blank he] at ih
          rcases List.mem_cons.1 h with rfl | h
          · exact List.mem_singleton.1 hc ▸ List.mem_cons_self
          · exact List.mem_cons_of_mem d (ih h hc)
        | false =>
          obtain ⟨u, us, hu⟩ := List.exists_cons_of_ne_nil (words_cons_ne_nil he t)
          rw [words_cons_cons hd he, hu, List.modifyHead_cons] at h
          rw [hu] at ih
          rcases List.mem_cons.1 h with rfl | h
          · rcases List.mem_cons.1 hc with rfl | hc
            · exact List.mem_cons_self
            · exact List.mem_cons_of_mem d (ih List.mem_cons_self hc)
          · exact List.mem_cons_of_mem d (ih (List.mem_cons_of_mem u h) hc)

end HashtagSearch.Text
