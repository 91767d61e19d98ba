import HashtagSearch.Json.Printer
import HashtagSearch.Proofs.Display.Sequences

/-!
# No escapes in printed JSON

A value on one line holds no escape, whatever its strings are: control characters in strings are
written with backslashes, and the rest is digits, letters and marks.
-/

namespace HashtagSearch

open Text

namespace Decimal

theorem unescaped_place {digits : Text} (h : digits.Unescaped) (point : Int) :
    (place digits point).Unescaped := by
  have htake (n : Nat) : Unescaped (digits.take n) := h.subset (List.take_subset _ _)
  have hdrop (n : Nat) : Unescaped (digits.drop n) := h.subset (List.drop_subset _ _)
  have hexponent (n : Int) : (exponentText n).Unescaped := by
    unfold exponentText
    split <;> simp
  unfold place
  split_ifs
  · simp [zeros, h]
  · simp [htake, hdrop]
  · simp [zeros, h]
  · simp [htake, hexponent]
  · have hrest := hdrop 1
    simp only [unescaped_append, unescaped_cons]
    exact ⟨⟨htake 1, by decide, hrest⟩, hexponent _⟩

end Decimal

namespace JsonNumber

theorem unescaped_ofBinary64 (x : Binary64) : (ofBinary64 x).Unescaped := by
  cases x with
  | finite negative significand exponent =>
    rw [ofBinary64, unescaped_append]
    constructor
    · cases negative <;> decide
    · split
      · decide
      · exact Decimal.unescaped_place (unescaped_ofNat _) _
  | infinite | nan => simp [ofBinary64]

theorem unescaped_toText (n : JsonNumber) : n.toText.Unescaped := by
  cases n with
  | integer n =>
    rw [toText, unescaped_append]
    constructor
    · split <;> decide
    · exact unescaped_ofNat _
  | double x => exact unescaped_ofBinary64 x

end JsonNumber

namespace Json

theorem unescaped_escapeChar (c : Char) : (escapeChar c).Unescaped := by
  have hdigit : ∀ n < 16, '\x1b' ≠ hexDigit n := by decide
  unfold escapeChar
  split_ifs with _ _ _ _ _ _ _ hcontrol
  · decide
  · decide
  · decide
  · decide
  · decide
  · decide
  · decide
  · have hhigh := hdigit (c.toNat / 16) (by omega)
    have hlow := hdigit (c.toNat % 16) (by omega)
    simp [hhigh, hlow]
  · rw [unescaped_cons]
    refine ⟨?_, unescaped_nil⟩
    rintro rfl
    exact hcontrol (by decide)

theorem unescaped_quote (s : Text) : (quote s).Unescaped := by
  have hbody : Unescaped (s.flatMap escapeChar) := by
    intro hmem
    obtain ⟨c, -, hc⟩ := List.mem_flatMap.1 hmem
    exact unescaped_escapeChar c hc
  simp [quote, hbody]

mutual

theorem unescaped_compact (v : Json) : v.compact.Unescaped := by
  match v with
  | null => decide
  | bool b => cases b <;> decide
  | number n => exact n.unescaped_toText
  | string s => exact unescaped_quote s
  | array items => simp [compact, unescaped_compactItems items]
  | object entries => simp [compact, unescaped_compactEntries entries]

theorem unescaped_compactItems (items : List Json) : (compactItems items).Unescaped := by
  match items with
  | [] => exact unescaped_nil
  | [v] => exact unescaped_compact v
  | v :: w :: items =>
    simp [compactItems, unescaped_compact v, unescaped_compactItems (w :: items)]

theorem unescaped_compactEntries (entries : List (Text × Json)) :
    (compactEntries entries).Unescaped := by
  match entries with
  | [] => exact unescaped_nil
  | [(k, v)] => simp [compactEntries, unescaped_quote, unescaped_compact v]
  | (k, v) :: e :: entries =>
    simp [compactEntries, unescaped_quote, unescaped_compact v,
      unescaped_compactEntries (e :: entries)]

end

end Json

end HashtagSearch
