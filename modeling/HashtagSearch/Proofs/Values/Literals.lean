import HashtagSearch.Matching
import HashtagSearch.Proofs.Text.Keywords
import HashtagSearch.Proofs.Text.Trimming

/-!
# Hyphens in numbers and dates

A hyphen that is not the first character of a number belongs to its exponent, and a date has one
behind its year. In both cases what stands in front of the first such hyphen is no number or
date by itself.
-/

namespace HashtagSearch

open Text

/-! ## Numbers -/

namespace Number

variable {t : Text} {negative : Bool} {n : Binary64}

/-- The text ends with an exponent that has a minus and digits behind its letter. -/
structure NegativeExponent (t low digits : Text) : Prop where
  eq : t = low ++ '-' :: digits
  letter : ∃ mantissa e, low = mantissa ++ [e] ∧ (e = 'e' ∨ e = 'E')
  digits_ne_nil : digits ≠ []
  all_digits : ∀ c ∈ digits, c.isDigit = true

def IsMantissaChar (c : Char) : Prop := c.isDigit = true ∨ c = '.'

theorem IsMantissaChar.ne {c d : Char} (h : IsMantissaChar c) (hd : d.isDigit = false)
    (hpoint : d ≠ '.') : c ≠ d := by
  rintro rfl
  rcases h with h | h
  · rw [hd] at h
    cases h
  · exact hpoint h

theorem IsMantissaChar.not_blank {c : Char} (h : IsMantissaChar c) : isBlank c = false := by
  rcases h with h | rfl
  · exact not_blank_of_isDigit h
  · decide

theorem not_mem_of_digits {digits : Text} (h : ∀ c ∈ digits, c.isDigit = true) :
    '-' ∉ digits := by
  intro hmem
  cases h '-' hmem

theorem readSign_of_mantissa {c : Char} (h : IsMantissaChar c) (t : Text) :
    readSign (c :: t) = (false, c :: t) := by
  have hminus : c ≠ '-' := h.ne (by decide) (by decide)
  have hplus : c ≠ '+' := h.ne (by decide) (by decide)
  unfold readSign
  split
  · next heq => exact absurd (List.cons.inj heq).1 hminus
  · next heq => exact absurd (List.cons.inj heq).1 hplus
  · rfl

theorem exists_sign (t : Text) : ∃ sign, t = sign ++ (readSign t).2 ∧
    (∀ c ∈ sign, isBlank c = false) ∧
    (∀ mantissa, '-' ∉ mantissa → '-' ∉ (sign ++ mantissa).tail) ∧
    ∀ c u, IsMantissaChar c → (readSign (sign ++ c :: u)).2 = c :: u := by
  unfold readSign
  split
  · have hblank : ∀ c ∈ ['-'], isBlank c = false := List.forall_mem_singleton.2 (by decide)
    exact ⟨['-'], rfl, hblank, fun _ h => h, fun _ _ _ => rfl⟩
  · have hblank : ∀ c ∈ ['+'], isBlank c = false := List.forall_mem_singleton.2 (by decide)
    exact ⟨['+'], rfl, hblank, fun _ h => h, fun _ _ _ => rfl⟩
  · refine ⟨[], rfl, by simp, fun _ h hmem => h (List.mem_of_mem_tail hmem), fun c u hc => ?_⟩
    exact congrArg Prod.snd (readSign_of_mantissa hc u)

theorem head_no_digit {c : Char} (hc : ¬ IsMantissaChar c) (u : Text) :
    ∀ d ∈ (c :: u).head?, d.isDigit = false := by
  simpa using fun hd => hc (.inl hd)

theorem readDigits_whole {whole : Text} {c : Char} (hwhole : ∀ d ∈ whole, d.isDigit = true)
    (hc : ¬ IsMantissaChar c) (u : Text) :
    readDigits (whole ++ c :: u) = (whole, [], c :: u) := by
  obtain ⟨htake, hdrop⟩ := takeWhile_append_of_head hwhole (head_no_digit hc u)
  unfold readDigits
  rw [hdrop, htake]
  split
  · next heq => exact absurd (.inr (List.cons.inj heq).1) hc
  · rfl

theorem readDigits_point {whole fraction : Text} {c : Char}
    (hwhole : ∀ d ∈ whole, d.isDigit = true) (hfraction : ∀ d ∈ fraction, d.isDigit = true)
    (hc : ¬ IsMantissaChar c) (u : Text) :
    readDigits (whole ++ '.' :: fraction ++ c :: u) = (whole, fraction, c :: u) := by
  have hpoint : ∀ d ∈ ('.' :: (fraction ++ c :: u)).head?, d.isDigit = false := by simp
  obtain ⟨htake, hdrop⟩ := takeWhile_append_of_head hwhole hpoint
  obtain ⟨htake', hdrop'⟩ := takeWhile_append_of_head hfraction (head_no_digit hc u)
  rw [List.append_assoc, List.cons_append, readDigits, hdrop]
  simp only [htake, htake', hdrop']

/-- The digits of a number and the point end in front of another character. -/
theorem exists_mantissa {whole fraction rest : Text}
    (h : readDigits t = (whole, fraction, rest)) :
    ∃ mantissa, t = mantissa ++ rest ∧ (∀ c ∈ mantissa, IsMantissaChar c) ∧
      ((whole.isEmpty && fraction.isEmpty) = false → mantissa ≠ []) ∧
      ∀ c u, ¬ IsMantissaChar c →
        readDigits (mantissa ++ c :: u) = (whole, fraction, c :: u) := by
  have hwhole : ∀ c ∈ t.takeWhile Char.isDigit, c.isDigit = true :=
    fun c hc => List.mem_takeWhile_imp hc
  have hsplit : t.takeWhile Char.isDigit ++ t.dropWhile Char.isDigit = t :=
    List.takeWhile_append_dropWhile
  unfold readDigits at h
  split at h
  · next rest' hpoint =>
    cases h
    have hfraction : ∀ c ∈ rest'.takeWhile Char.isDigit, c.isDigit = true :=
      fun c hc => List.mem_takeWhile_imp hc
    refine ⟨t.takeWhile Char.isDigit ++ '.' :: rest'.takeWhile Char.isDigit, ?_, ?_, by simp,
      fun c u hc => readDigits_point hwhole hfraction hc u⟩
    · rw [List.append_assoc, List.cons_append, List.takeWhile_append_dropWhile, ← hpoint, hsplit]
    · intro c hc
      rcases List.mem_append.1 hc with hc | hc
      · exact .inl (hwhole c hc)
      · rcases List.mem_cons.1 hc with rfl | hc
        · exact .inr rfl
        · exact .inl (hfraction c hc)
  · next hpoint =>
    cases h
    refine ⟨t.takeWhile Char.isDigit, hsplit.symm, fun c hc => .inl (hwhole c hc), ?_,
      fun c u hc => readDigits_whole hwhole hc u⟩
    simp

theorem exists_of_readExponent? {k : Int} (h : readExponent? t = some k) :
    (∀ c ∈ t, isBlank c = false) ∧
      ('-' ∈ t → ∃ digits, t = '-' :: digits ∧ digits ≠ [] ∧ ∀ c ∈ digits, c.isDigit = true) := by
  have hdigits : (readSign t).2 ≠ [] ∧ ∀ c ∈ (readSign t).2, c.isDigit = true := by
    simp only [readExponent?] at h
    split at h
    · cases h
    · next hne => simpa using hne
  have hblank : ∀ c ∈ (readSign t).2, isBlank c = false :=
    fun c hc => not_blank_of_isDigit (hdigits.2 c hc)
  have hhyphen := not_mem_of_digits hdigits.2
  revert hdigits hblank hhyphen
  unfold readSign
  split
  · next t' =>
    intro hdigits hblank _
    exact ⟨List.forall_mem_cons.2 ⟨by decide, hblank⟩, fun _ => ⟨t', rfl, hdigits⟩⟩
  · intro _ hblank hhyphen
    refine ⟨List.forall_mem_cons.2 ⟨by decide, hblank⟩, fun hmem => ?_⟩
    rcases List.mem_cons.1 hmem with heq | hmem
    · cases heq
    · exact absurd hmem hhyphen
  · intro _ hblank hhyphen
    exact ⟨hblank, fun hmem => absurd hmem hhyphen⟩

/-- Only the exponent of a decimal can hold a hyphen, and up to there the text is none. -/
theorem exists_of_readDecimal? (h : readDecimal? negative t = some n) :
    (∀ c ∈ t, isBlank c = false) ∧
      ('-' ∈ t → ∃ c low digits, NegativeExponent t (c :: low) digits ∧ IsMantissaChar c ∧
        '-' ∉ c :: low ∧ ∀ negative, readDecimal? negative (c :: low) = none) := by
  rcases hd : readDigits t with ⟨whole, fraction, rest⟩
  obtain ⟨mantissa, rfl, hmantissa, hne, hdigits⟩ := exists_mantissa hd
  simp only [readDecimal?, hd] at h
  split at h
  · cases h
  · next hsome =>
    obtain ⟨k, hk, -⟩ := Option.map_eq_some_iff.1 h
    have hhyphen : '-' ∉ mantissa := fun hmem => (hmantissa _ hmem).ne (by decide) (by decide) rfl
    have hblank : ∀ c ∈ mantissa, isBlank c = false := fun c hc => (hmantissa c hc).not_blank
    cases rest with
    | nil =>
      rw [List.append_nil]
      exact ⟨hblank, fun hmem => absurd hmem hhyphen⟩
    | cons e t =>
      rw [readScale?] at hk
      split at hk
      · next he =>
        obtain ⟨htblank, hminus⟩ := exists_of_readExponent? hk
        have heblank : isBlank e = false := by rcases he with rfl | rfl <;> decide
        have hehyphen : '-' ≠ e := by rcases he with rfl | rfl <;> decide
        have hechar : ¬ IsMantissaChar e := by
          rcases he with rfl | rfl <;> simp [IsMantissaChar]
        refine ⟨?_, fun hmem => ?_⟩
        · simpa [or_imp, forall_and] using ⟨hblank, heblank, htblank⟩
        · obtain ⟨digits, rfl, hdne, hall⟩ := hminus (by simpa [hhyphen, hehyphen] using hmem)
          obtain ⟨c, m, rfl⟩ := List.exists_cons_of_ne_nil (hne (by simpa using hsome))
          refine ⟨c, m ++ [e], digits, ⟨by simp, ⟨c :: m, e, rfl, he⟩, hdne, hall⟩,
            hmantissa c List.mem_cons_self, ?_, fun negative => ?_⟩
          · simpa [hehyphen] using hhyphen
          · have hcut := hdigits e [] hechar
            have hscale : readScale? [e] = none := by simp [readScale?, he, readExponent?, readSign]
            rw [List.cons_append] at hcut
            simp only [readDecimal?, hcut, hscale, Option.map_none, ite_self]
      · cases hk

/-! ### Words -/

theorem word_of_readWord? (h : readWord? negative t = some n) :
    t.map Char.toLower ∈ ["inf".toList, "infinity".toList, "nan".toList] := by
  simp only [readWord?, sameIgnoringCase, Bool.or_eq_true, beq_iff_eq] at h
  split at h
  · next hinf => rcases hinf with hinf | hinf <;> rw [hinf] <;> decide
  · split at h
    · next hnan => rw [hnan]; decide
    · cases h

theorem isAlpha_of_readWord? (h : readWord? negative t = some n) :
    ∀ c ∈ t, c.toLower.isAlpha = true := by
  intro c hc
  have hwords : ∀ w ∈ ["inf".toList, "infinity".toList, "nan".toList],
      w.all Char.isAlpha = true := by decide
  exact List.all_eq_true.1 (hwords _ (word_of_readWord? h)) _ (List.mem_map_of_mem hc)

theorem readWord?_eq_none_of_letter {low : Text}
    (h : ∃ mantissa e, low = mantissa ++ [e] ∧ (e = 'e' ∨ e = 'E')) (negative : Bool) :
    readWord? negative low = none := by
  obtain ⟨mantissa, e, rfl, he⟩ := h
  have hletter : e.toLower = 'e' := by rcases he with rfl | rfl <;> rfl
  have hwords : ∀ w ∈ ["inf".toList, "infinity".toList, "nan".toList],
      w.getLast? ≠ some 'e' := by decide
  by_contra hne
  obtain ⟨n, hn⟩ := Option.ne_none_iff_exists'.1 hne
  exact hwords _ (word_of_readWord? hn) (by simp [hletter])

/-- A number has no blanks in it, and only its exponent can hold a hyphen behind the first
character. Up to that hyphen there is no number yet. -/
theorem exists_of_read? (h : read? t = some n) :
    (∀ c ∈ t, isBlank c = false) ∧
      ('-' ∈ t.tail → ∃ low digits, NegativeExponent t low digits ∧ '-' ∉ low.tail ∧
        read? low = none) := by
  obtain ⟨sign, ht, hsign, hhyphen, hread⟩ := exists_sign t
  have hmem : '-' ∈ t.tail → '-' ∈ (readSign t).2 := by
    intro hmem
    by_contra hnot
    rw [ht] at hmem
    exact hhyphen _ hnot hmem
  simp only [read?] at h
  rcases Option.or_eq_some_iff.1 h with h | ⟨-, h⟩
  · obtain ⟨hblank, hdecimal⟩ := exists_of_readDecimal? h
    refine ⟨?_, fun htail => ?_⟩
    · rw [ht]
      exact List.forall_mem_append.2 ⟨hsign, hblank⟩
    · obtain ⟨c, low, digits, hexp, hc, hlow, hnone⟩ := hdecimal (hmem htail)
      obtain ⟨mantissa, e, hletter, he⟩ := hexp.letter
      refine ⟨sign ++ c :: low, digits, ⟨?_, ⟨sign ++ mantissa, e, ?_, he⟩, hexp.digits_ne_nil,
        hexp.all_digits⟩, hhyphen _ hlow, ?_⟩
      · rw [ht, hexp.eq, List.append_assoc]
      · rw [hletter, List.append_assoc]
      · simp only [read?]
        rw [hread c low hc, hnone, readWord?_eq_none_of_letter hexp.letter]
        rfl
  · have halpha := isAlpha_of_readWord? h
    refine ⟨?_, fun htail => ?_⟩
    · rw [ht]
      refine List.forall_mem_append.2 ⟨hsign, fun c hc => ?_⟩
      by_contra hb
      rw [Bool.not_eq_false] at hb
      have := halpha c hc
      rw [(toLower_eq_iff_of_isBlank hb).2 rfl] at this
      rw [not_blank_of_isAlpha this] at hb
      cases hb
    · cases halpha _ (hmem htail)

end Number

/-! ## Dates -/

namespace Date

variable {t rest : Text} {d : Date}

theorem exists_of_readNumber? {most k : Nat} (h : readNumber? most t = some (k, rest)) :
    ∃ digits, t = digits ++ rest ∧ digits ≠ [] ∧ ∀ c ∈ digits, c.isDigit = true := by
  have hp : (t.take most).takeWhile Char.isDigit <+: t :=
    (List.takeWhile_prefix _).trans (List.take_prefix most t)
  simp only [readNumber?] at h
  split at h
  · cases h
  · next hne =>
    cases h
    exact ⟨_, (List.prefix_append_drop hp), by simpa using hne,
      fun c hc => List.mem_takeWhile_imp hc⟩

theorem exists_of_readYear? {year : Int} (h : readYear? t = some (year, rest)) :
    ∃ front, t = front ++ rest ∧ front ≠ [] ∧ '-' ∉ front.tail ∧
      ∀ c ∈ front, isBlank c = false := by
  have hdigits {most : Nat} {k : Nat} {t : Text} (hk : readNumber? most t = some (k, rest)) :
      ∃ digits, t = digits ++ rest ∧ digits ≠ [] ∧ '-' ∉ digits ∧
        ∀ c ∈ digits, isBlank c = false := by
    obtain ⟨digits, ht, hne, hall⟩ := exists_of_readNumber? hk
    exact ⟨digits, ht, hne, Number.not_mem_of_digits hall,
      fun c hc => not_blank_of_isDigit (hall c hc)⟩
  unfold readYear? at h
  split at h <;> obtain ⟨⟨k, rest'⟩, hk, heq⟩ := Option.map_eq_some_iff.1 h <;> cases heq <;>
    obtain ⟨digits, rfl, hne, hhyphen, hblank⟩ := hdigits hk
  · exact ⟨'-' :: digits, rfl, List.cons_ne_nil _ _, hhyphen,
      List.forall_mem_cons.2 ⟨by decide, hblank⟩⟩
  · exact ⟨'+' :: digits, rfl, List.cons_ne_nil _ _, hhyphen,
      List.forall_mem_cons.2 ⟨by decide, hblank⟩⟩
  · exact ⟨digits, rfl, hne, fun hmem => hhyphen (List.mem_of_mem_tail hmem), hblank⟩

theorem exists_of_readPart? {k : Nat} (h : readPart? t = some (k, rest)) :
    ∃ part, t = '-' :: part ∧ ∃ c ∈ part, isBlank c = false := by
  unfold readPart? at h
  split at h
  · next part =>
    obtain ⟨digits, ht, hne, hall⟩ := exists_of_readNumber? h
    obtain ⟨c, digits, rfl⟩ := List.exists_cons_of_ne_nil hne
    refine ⟨part, rfl, c, ?_, not_blank_of_isDigit (hall c List.mem_cons_self)⟩
    have hmem : c ∈ trimStart part := by simp [ht]
    exact (List.dropWhile_suffix isBlank).subset hmem
  · cases h

theorem takeBytes?_isPrefix {size : Nat} {p : Text} (h : takeBytes? size t = some p) :
    p <+: t := by
  induction size, t using takeBytes?.induct generalizing p with
  | case1 t =>
    rw [takeBytes?] at h
    cases h
    exact List.nil_prefix
  | case2 size =>
    rw [takeBytes?] at h
    cases h
  | case3 size c t hsize =>
    rw [takeBytes?, if_pos hsize] at h
    cases h
  | case4 size c t hsize ih =>
    rw [takeBytes?, if_neg hsize] at h
    obtain ⟨p', hp, rfl⟩ := Option.map_eq_some_iff.1 h
    exact (List.prefix_cons_inj c).2 (ih hp)

/-- A date has a hyphen behind its year and a month behind that. -/
theorem exists_of_read? (h : read? t = some d) (htrim : trim t = t) :
    ∃ year high, t = year ++ '-' :: high ∧ year ≠ [] ∧ '-' ∉ year.tail ∧
      (∀ c ∈ year, isBlank c = false) ∧ ∃ c ∈ high, isBlank c = false := by
  rw [read?, htrim] at h
  have hp : (takeBytes? 10 t).getD t <+: t := by
    cases hbytes : takeBytes? 10 t with
    | none => exact List.prefix_rfl
    | some p => exact takeBytes?_isPrefix hbytes
  obtain ⟨after, ht⟩ := hp
  generalize (takeBytes? 10 t).getD t = p at h ht
  obtain ⟨⟨year, rest⟩, hyear, h⟩ := Option.bind_eq_some_iff.1 h
  obtain ⟨⟨month, rest'⟩, hmonth, -⟩ := Option.bind_eq_some_iff.1 h
  obtain ⟨front, hfront, hne, hhyphen, hblank⟩ := exists_of_readYear? hyear
  obtain ⟨part, rfl, c, hc, hcblank⟩ := exists_of_readPart? hmonth
  -- The text has no blank in front, and neither has what is read of it.
  have hstart : trimStart p = p := by
    have hpne : p ≠ [] := by
      rintro rfl
      simp [trimStart, hne] at hfront
    obtain ⟨d, r, hd, hdblank⟩ := (solid_of_trim_eq (by simp [← ht, hpne]) htrim).1
    obtain ⟨x, p, rfl⟩ := List.exists_cons_of_ne_nil hpne
    obtain rfl : x = d := (List.cons.inj (ht.trans hd)).1
    exact trimStart_of_solidStart ⟨x, p, rfl, hdblank⟩
  refine ⟨front, part ++ after, ?_, hne, hhyphen, hblank, c, List.mem_append_left _ hc, hcblank⟩
  rw [← ht, ← hstart, hfront, List.append_assoc, List.cons_append]

end Date

end HashtagSearch
