import HashtagSearch.Proofs.Grouped.Leaves

/-!
# Tokens in writing

Tokens are written one after the other with single spaces between them. They are read back
from that if each of them can stand in a text and no two values stand next to each other, for
these would become one value. The blanks around a value belong to no token.
-/

namespace HashtagSearch

open Text

namespace Text.LooseHashes

variable {c d : Char} {s t : Text}

theorem of_length_le_one (h : t.length ≤ 1) : LooseHashes t := by
  intro d hd
  have hlength : ['#', d].length ≤ t.length := hd.length_le
  simp at hlength
  omega

theorem cons_cons_iff :
    LooseHashes (c :: d :: t) ↔ (c = '#' → isBlank d = true) ∧ LooseHashes (d :: t) := by
  constructor
  · intro h
    refine ⟨?_, h.mono (List.suffix_cons c _).isInfix⟩
    rintro rfl
    exact h d (by simp [List.infix_cons_iff])
  · rintro ⟨hc, h⟩ e he
    rcases List.infix_cons_iff.1 he with he | he
    · obtain ⟨hhash, hnext⟩ := List.cons_prefix_cons.1 he
      obtain rfl := (List.cons_prefix_cons.1 hnext).1
      exact hc hhash.symm
    · exact h e he

instance decidable : (t : Text) → Decidable (LooseHashes t)
  | [] | [_] => .isTrue (of_length_le_one (by simp))
  | _ :: d :: t =>
    have := decidable (d :: t)
    decidable_of_iff _ cons_cons_iff.symm

theorem of_allBlank (h : AllBlank t) : LooseHashes t := by
  intro d hd
  exact h d (hd.subset (by simp))

theorem append_of_allBlank (h : LooseHashes t) (hs : AllBlank s) : LooseHashes (t ++ s) := by
  induction t with
  | nil => exact of_allBlank hs
  | cons c t ih =>
    cases t with
    | nil =>
      cases s with
      | nil => exact h
      | cons b s => exact cons_cons_iff.2 ⟨fun _ => hs b List.mem_cons_self, of_allBlank hs⟩
    | cons d t =>
      obtain ⟨hc, ht⟩ := cons_cons_iff.1 h
      exact cons_cons_iff.2 ⟨hc, ih ht⟩

end Text.LooseHashes

namespace Token

variable {t rest x raw : Text} {c d : Char}

/-! ## One token after the other -/

theorem read?_of_head_ne (hc : c ≠ '#') (t : Text) : read? (c :: t) = none := by
  unfold read?
  split
  · next heq => exact absurd (List.cons.inj heq).1 hc
  · next heq => exact absurd (List.cons.inj heq).1 hc
  · next heq => exact absurd (List.cons.inj heq).1 hc
  · next heq => exact absurd (List.cons.inj heq).1 hc
  · rfl

theorem read?_of_blank (hd : isBlank d = true) (t : Text) : read? ('#' :: d :: t) = none := by
  have hname : isNameChar d = false := Segment.isNameChar_of_isBlank hd
  have hmark : d ≠ '#' ∧ d ≠ '(' ∧ d ≠ ')' := by
    refine ⟨?_, ?_, ?_⟩ <;> rintro rfl <;> exact absurd hd (by decide)
  simp [read?, hname, hmark]

theorem spanValue_of_isSome (h : (read? t).isSome = true) : spanValue t = ([], t) := by
  cases t with
  | nil => rfl
  | cons c t => rw [spanValue, if_pos h]

/-- A `#` in front of a blank or at the end is passed over, and so is all that is no `#`. -/
theorem spanValue_of_looseHashes (h : LooseHashes raw) (hr : spanValue rest = ([], rest))
    (hseam : raw.getLast? = some '#' → rest = []) : spanValue (raw ++ rest) = (raw, rest) := by
  induction raw with
  | nil => exact hr
  | cons c raw ih =>
    have hnone : read? (c :: (raw ++ rest)) = none := by
      by_cases hc : c = '#'
      · subst hc
        cases raw with
        | nil =>
          obtain rfl := hseam rfl
          rfl
        | cons d raw =>
          exact read?_of_blank ((LooseHashes.cons_cons_iff.1 h).1 rfl) (raw ++ rest)
      · exact read?_of_head_ne hc (raw ++ rest)
    have hrest : spanValue (raw ++ rest) = (raw, rest) := by
      apply ih (h.mono (List.suffix_cons c raw).isInfix)
      intro hlast
      apply hseam
      cases raw with
      | nil => cases hlast
      | cons d raw => exact hlast
    rw [List.cons_append, spanValue, hnone, hrest]
    rfl

theorem spanValue_blank_append {lead : Text} (h : AllBlank lead) (t : Text) :
    spanValue (lead ++ t) = (lead ++ (spanValue t).1, (spanValue t).2) := by
  induction lead with
  | nil => rfl
  | cons c lead ih =>
    obtain ⟨hc, hlead⟩ := List.forall_mem_cons.1 h
    have hhash : c ≠ '#' := by
      rintro rfl
      exact absurd hc (by decide)
    rw [List.cons_append, spanValue, read?_of_head_ne hhash, ih hlead]
    rfl

/-! ## Reading, positions aside -/

/-- The value that a run of characters between words writes, unless it is blank. -/
def ofRun (raw : Text) : List Token := if (trim raw).isEmpty then [] else [value (trim raw)]

theorem ofRun_congr {s t : Text} (h : trim s = trim t) : ofRun s = ofRun t := by
  rw [ofRun, h, ← ofRun]

theorem ofRun_of_filled (h : Filled x) : ofRun x = [value x] := by
  simp [ofRun, h.1, h.2]

theorem map_token_placeValue (position : Nat) (raw : Text) :
    (placeValue position raw).map (·.token) = ofRun raw := by
  unfold placeValue ofRun
  split <;> rfl

theorem map_token_scanFrom (position : Nat) (t : Text) :
    (scanFrom position t).map (·.token) = ofText t := by
  suffices h : ∀ other, (scanFrom other t).map (·.token) = (scanFrom position t).map (·.token) from
    (h 0).symm
  induction position, t using scanFrom.induct with
  | case1 position t token rest hread ih =>
    intro other
    rw [scanFrom_of_read? hread, scanFrom_of_read? hread, List.map_cons, List.map_cons, ih]
  | case2 position hread =>
    intro other
    rw [scanFrom_nil, scanFrom_nil]
  | case3 position c t hread ih =>
    intro other
    rw [scanFrom_of_run hread, scanFrom_of_run hread, List.map_append, List.map_append,
      map_token_placeValue, map_token_placeValue, ih]

theorem ofText_nil : ofText [] = [] := by
  rw [ofText, scan, scanFrom_nil, List.map_nil]

theorem ofText_of_read? {token : Token} (h : read? t = some (token, rest)) :
    ofText t = token :: ofText rest := by
  rw [ofText, scan, scanFrom_of_read? h, List.map_cons, map_token_scanFrom]

/-- The tokens of a text are the value at its head, if there is one, and those of the rest. -/
theorem scanFrom_eq (start : Nat) (t : Text) :
    scanFrom start t = placeValue start (spanValue t).1 ++
      scanFrom (start + byteLength (spanValue t).1) (spanValue t).2 := by
  by_cases h : (read? t).isSome = true
  · rw [spanValue_of_isSome h]
    rfl
  · have hnone : read? t = none := by simpa using h
    cases t with
    | nil => rfl
    | cons c t => rw [scanFrom_of_run hnone, spanValue_of_read?_eq_none hnone]

theorem ofText_eq_ofRun (t : Text) :
    ofText t = ofRun (spanValue t).1 ++ ofText (spanValue t).2 := by
  rw [ofText, scan, scanFrom_eq, List.map_append, map_token_placeValue, map_token_scanFrom]

theorem ofText_blank_append {lead : Text} (h : AllBlank lead) (t : Text) :
    ofText (lead ++ t) = ofText t := by
  have hrun : ofRun (lead ++ (spanValue t).1) = ofRun (spanValue t).1 :=
    ofRun_congr (trim_append_of_allBlank h _)
  rw [ofText_eq_ofRun, spanValue_blank_append h, hrun, ← ofText_eq_ofRun]

theorem ofText_value_append (hx : Filled x) (hloose : LooseHashes x)
    (hr : (read? rest).isSome = true) : ofText (x ++ ' ' :: rest) = value x :: ofText rest := by
  have hspan : spanValue ((x ++ [' ']) ++ rest) = (x ++ [' '], rest) := by
    apply spanValue_of_looseHashes (hloose.append_of_allBlank allBlank_space)
      (spanValue_of_isSome hr)
    simp
  have hstart : SolidStart x := (solid_of_trim_eq hx.1 hx.2).1
  have htrim : trim (x ++ [' ']) = trim x := by
    rw [trim_of_solidStart (hstart.append _), trimEnd_append_of_allBlank x allBlank_space,
      ← trim_of_solidStart hstart]
  rw [List.append_cons, ofText_eq_ofRun, hspan, ofRun_congr htrim, ofRun_of_filled hx]
  rfl

theorem ofText_value (hx : Filled x) (hloose : LooseHashes x) : ofText x = [value x] := by
  have hspan : spanValue (x ++ []) = (x, []) := spanValue_of_looseHashes hloose rfl fun _ => rfl
  rw [List.append_nil] at hspan
  rw [ofText_eq_ofRun, hspan, ofRun_of_filled hx, ofText_nil, List.append_nil]

/-! ## Writing -/

/-- The tokens as they are typed, with single spaces between them. -/
def displayAll (ts : List Token) : Text := joinWith [' '] (ts.map display)

def isValue : Token → Bool
  | value _ => true
  | _ => false

/-- A token that some text holds: the word behind a `#` does not begin another mark, and no
word begins in a value. -/
def Proper : Token → Prop
  | hashtag name => Segment.IsName name ∧ name.head? ≠ some '(' ∧ name.head? ≠ some ')'
  | value x => Filled x ∧ LooseHashes x
  | _ => True

instance (token : Token) : Decidable token.Proper :=
  match token with
  | hashtag name =>
    decidable_of_iff ((name ≠ [] ∧ name.all isNameChar = true) ∧
        name.head? ≠ some '(' ∧ name.head? ≠ some ')')
      ⟨fun ⟨⟨hne, hall⟩, hp⟩ => ⟨⟨hne, List.all_eq_true.1 hall⟩, hp⟩,
        fun ⟨⟨hne, hall⟩, hp⟩ => ⟨⟨hne, List.all_eq_true.2 hall⟩, hp⟩⟩
  | value x => inferInstanceAs (Decidable ((x ≠ [] ∧ trim x = x) ∧ LooseHashes x))
  | groupOpen | groupClose | confirm => .isTrue trivial

theorem displayAll_singleton (token : Token) : displayAll [token] = token.display := by
  simp [displayAll, joinWith]

theorem displayAll_cons_cons (a b : Token) (ts : List Token) :
    displayAll (a :: b :: ts) = a.display ++ ' ' :: displayAll (b :: ts) := by
  simp [displayAll, joinWith, List.intercalate_cons_cons]

theorem prefix_displayAll (token : Token) (ts : List Token) :
    token.display <+: displayAll (token :: ts) := by
  cases ts with
  | nil => exact displayAll_singleton token ▸ List.prefix_rfl
  | cons u ts => exact displayAll_cons_cons token u ts ▸ List.prefix_append _ _

theorem infix_displayAll {token : Token} {ts : List Token} (h : token ∈ ts) :
    token.display <:+: displayAll ts := by
  induction ts with
  | nil => cases h
  | cons u ts ih =>
    rcases List.mem_cons.1 h with rfl | h
    · exact (prefix_displayAll token ts).isInfix
    · cases ts with
      | nil => cases h
      | cons v ts =>
        rw [displayAll_cons_cons, List.append_cons]
        exact (ih h).trans (List.suffix_append _ _).isInfix

theorem suffix_displayAll (ts : List Token) (token : Token) :
    token.display <:+ displayAll (ts ++ [token]) := by
  induction ts with
  | nil => exact displayAll_singleton token ▸ List.suffix_rfl
  | cons u ts ih =>
    obtain ⟨v, us, hv⟩ := List.exists_cons_of_ne_nil (show ts ++ [token] ≠ [] by simp)
    rw [hv] at ih
    rw [List.cons_append, hv, displayAll_cons_cons, List.append_cons]
    exact ih.trans (List.suffix_append _ _)

theorem exists_display_eq_hash {token : Token} (h : token.isValue = false) :
    ∃ r, token.display = '#' :: r := by
  cases token with
  | value x => cases h
  | _ => exact ⟨_, rfl⟩

/-- A mark or a word is read back whatever follows, if only its name ends there. -/
theorem read?_display {token : Token} (h : token.Proper) (hv : token.isValue = false) (rest : Text)
    (hr : ∀ c ∈ rest.head?, isNameChar c = false) :
    read? (token.display ++ rest) = some (token, rest) := by
  cases token with
  | groupOpen => rfl
  | groupClose => rfl
  | confirm => rfl
  | value x => cases hv
  | hashtag name =>
    obtain ⟨hname, hopen, hclose⟩ := h
    have htag : Segment.readTag? ('#' :: name ++ rest) = some (name, rest) :=
      Segment.readTag?_eq_some_iff.2 ⟨rfl, hname, hr⟩
    obtain ⟨d, r, rfl⟩ := List.exists_cons_of_ne_nil hname.1
    have hhash : d ≠ '#' := by
      rintro rfl
      exact absurd (hname.2 '#' List.mem_cons_self) (by decide)
    have hd : d ≠ '(' ∧ d ≠ ')' := ⟨by simpa using hopen, by simpa using hclose⟩
    simp only [List.cons_append, Segment.readTag?] at htag
    split at htag
    · cases htag
    · next hne =>
      obtain ⟨htake, hdrop⟩ := Prod.mk.inj (Option.some.inj htag)
      simp [display, read?, hhash, hd, htake, hdrop]

/-- Tokens that are told apart when they are written with spaces between them. -/
structure Separable (ts : List Token) : Prop where
  proper : ∀ token ∈ ts, token.Proper
  apart : ts.IsChain fun a b => (a.isValue && b.isValue) = false

theorem isSome_read?_displayAll {token : Token} (h : token.Proper) (hv : token.isValue = false)
    (ts : List Token) : (read? (displayAll (token :: ts))).isSome = true := by
  cases ts with
  | nil =>
    have hread := read?_display h hv [] (by simp)
    rw [List.append_nil] at hread
    rw [displayAll_singleton, hread]
    rfl
  | cons u ts =>
    have hblank : isNameChar ' ' = false := by decide
    rw [displayAll_cons_cons, read?_display h hv _ (by simpa using hblank)]
    rfl

/-- Tokens that can be told apart are read back from their text. -/
theorem ofText_displayAll {ts : List Token} (h : Separable ts) : ofText (displayAll ts) = ts := by
  obtain ⟨hproper, hapart⟩ := h
  induction ts with
  | nil => exact ofText_nil
  | cons token ts ih =>
    obtain ⟨htoken, hrest⟩ := List.forall_mem_cons.1 hproper
    have ih := ih hrest (List.isChain_cons.1 hapart).2
    cases ts with
    | nil =>
      rw [displayAll_singleton]
      cases hv : token.isValue with
      | true =>
        cases token with
        | value x => exact ofText_value htoken.1 htoken.2
        | _ => cases hv
      | false =>
        have hread := read?_display htoken hv [] (by simp)
        rw [List.append_nil] at hread
        rw [ofText_of_read? hread, ofText_nil]
    | cons u ts =>
      rw [displayAll_cons_cons]
      cases hv : token.isValue with
      | true =>
        have hu : u.isValue = false := by
          simpa [hv] using (List.isChain_cons_cons.1 hapart).1
        cases token with
        | value x =>
          have hread := isSome_read?_displayAll (hrest u List.mem_cons_self) hu ts
          rw [display, ofText_value_append htoken.1 htoken.2 hread, ih]
        | _ => cases hv
      | false =>
        have hblank : isNameChar ' ' = false := by decide
        have hread := read?_display htoken hv (' ' :: displayAll (u :: ts)) (by simpa using hblank)
        have hspace : ofText (' ' :: displayAll (u :: ts)) = ofText (displayAll (u :: ts)) :=
          ofText_blank_append allBlank_space _
        rw [ofText_of_read? hread, hspace, ih]

end Token

end HashtagSearch
