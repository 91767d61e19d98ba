import HashtagSearch.Text.CaseTable

/-!
# Small letters

`lowerChar` gives the small form of one character, which is two characters for the
dotted capital I. `lower` gives that of a text: it differs from the small forms of
the characters only in a capital sigma at the end of a word.
-/

namespace HashtagSearch.Text

def lowerChar (c : Char) : Text :=
  if c.toNat < 0x80 then [c.toLower]
  else if c = 'İ' then ['i', '\u0307']
  else
    match capitalRuns.find? fun (first, last, step, _) =>
        first ≤ c.toNat && c.toNat ≤ last && (c.toNat - first) % step == 0 with
    | some (_, _, _, offset) => [Char.ofNat (c.toNat + offset).toNat]
    | none => [c]

/-- Whether the first character that is not case-ignorable is cased. -/
def meetsCased (t : Text) : Bool := (t.find? (!isCaseIgnorable ·)).any isCased

/-- The small form of a capital sigma between the reversed text before it and the
text after it: final after a cased character unless one follows. -/
def lowerSigma (before after : Text) : Char :=
  if meetsCased before && !meetsCased after then 'ς' else 'σ'

/-- The small form of a text that follows `before`, which is given in reverse. -/
def lowerAfter (before : Text) : Text → Text
  | [] => []
  | c :: t =>
    if c = 'Σ' then lowerSigma before t :: lowerAfter (c :: before) t
    else lowerChar c ++ lowerAfter (c :: before) t

/-- The small form of a text. -/
def lower (t : Text) : Text := lowerAfter [] t

end HashtagSearch.Text
