import HashtagSearch.Proofs.Tokens

/-!
# Where the tokens of a text stand

The tokens of a text stand in it one behind the other, each as it is typed and as long as it
can be, with nothing but blanks around them. These properties determine the tokens and their
places. A list of tokens belongs to some text if and only if it can be read back from writing.
-/

namespace HashtagSearch

open Text

/-! ## Parts of a text -/

namespace Text

variable {s t x y : Text}

theorem append_eq_append_cons {c : Char} (h : s ++ t = x ++ c :: y) :
    (∃ m, s = x ++ c :: m) ∨ ∃ m, x = s ++ m ∧ t = m ++ c :: y := by
  rcases List.append_eq_append_iff.1 h with ⟨m, rfl, rfl⟩ | ⟨m, rfl, hm⟩
  · exact .inr ⟨m, rfl, rfl⟩
  · cases m with
    | nil => exact .inr ⟨[], by simp, hm.symm⟩
    | cons d m =>
      obtain ⟨rfl, -⟩ := List.cons.inj hm
      exact .inl ⟨m, rfl⟩

theorem prefix_of_byteLength_le (h : s ++ x = t ++ y) (hle : byteLength s ≤ byteLength t) :
    s <+: t := by
  rcases List.append_eq_append_iff.1 h with ⟨m, rfl, -⟩ | ⟨m, rfl, -⟩
  · exact List.prefix_append s m
  · rw [byteLength_append] at hle
    have hm : m = [] := by
      by_contra hne
      have := byteLength_pos hne
      omega
    rw [hm, List.append_nil]

end Text

/-! ## Spans of tokens -/

namespace Token

/-- The token does not go on in the text behind it: no further character of a name follows a
word, and nothing that a `#` at the end of a value could begin. -/
def EndsBefore : Token → Text → Prop
  | hashtag _, rest => ∀ c ∈ rest.head?, isNameChar c = false
  | value x, rest => x.getLast? = some '#' → ∀ c ∈ rest.head?, isBlank c = true
  | _, _ => True

end Token

namespace PlacedToken

/-- The byte behind the token. -/
def stop (p : PlacedToken) : Nat := p.position + byteLength p.token.display

/-- The token stands, as it is typed, at its place in a text that starts at byte `start`, and
ends there. -/
def StandsIn (start : Nat) (t : Text) (p : PlacedToken) : Prop :=
  ∃ s r, t = s ++ (p.token.display ++ r) ∧ start + byteLength s = p.position ∧
    p.token.EndsBefore r

end PlacedToken

namespace Token

variable {start : Nat} {t rest raw gap : Text} {token : Token} {ps : List PlacedToken}

/-- Tokens in the places that they have in a text, which starts at byte `start`. -/
structure Covers (start : Nat) (t : Text) (ps : List PlacedToken) : Prop where
  increasing : ps.Pairwise fun p q => p.position < q.position
  stands : ∀ p ∈ ps, p.StandsIn start t
  apart : ps.Pairwise fun p q => p.stop ≤ q.position
  /-- a character whose byte lies in no token is a blank -/
  blank_outside : ∀ s c r, t = s ++ c :: r →
    (∀ p ∈ ps, ¬ (p.position ≤ start + byteLength s ∧ start + byteLength s < p.stop)) →
    isBlank c = true
  separable : Separable (ps.map (·.token))

/-- A text is made of blanks and tokens, which are placed at the bytes where they start. -/
inductive Layout : Nat → Text → List PlacedToken → Prop
  | blank {start : Nat} {gap : Text} : AllBlank gap → Layout start gap []
  | token {start : Nat} {gap rest : Text} {token : Token} {ps : List PlacedToken} :
      AllBlank gap → token.EndsBefore rest →
      Layout (start + byteLength gap + byteLength token.display) rest ps →
      Layout start (gap ++ (token.display ++ rest)) (⟨token, start + byteLength gap⟩ :: ps)

theorem Layout.blank_append (hgap : AllBlank gap) (h : Layout (start + byteLength gap) t ps) :
    Layout start (gap ++ t) ps := by
  generalize hn : start + byteLength gap = n at h
  cases h with
  | blank ht => exact .blank (List.forall_mem_append.2 ⟨hgap, ht⟩)
  | @token _ lead rest token ps hlead hends hrest =>
    subst hn
    have hboth : AllBlank (gap ++ lead) := List.forall_mem_append.2 ⟨hgap, hlead⟩
    have hplace : start + byteLength gap + byteLength lead = start + byteLength (gap ++ lead) := by
      rw [byteLength_append, Nat.add_assoc]
    rw [hplace] at hrest ⊢
    rw [← List.append_assoc]
    exact .token hboth hends hrest

/-! ## The tokens that are read are laid out in the text -/

theorem of_read? (h : read? t = some (token, rest)) :
    t = token.display ++ rest ∧ token.Proper ∧ token.EndsBefore rest := by
  unfold read? at h
  split at h
  · cases h
    exact ⟨rfl, trivial, trivial⟩
  · cases h
    exact ⟨rfl, trivial, trivial⟩
  · cases h
    exact ⟨rfl, trivial, trivial⟩
  · next after hhash hopen hclose =>
    split at h
    · cases h
    · next hne =>
      cases h
      have hname : Segment.IsName (after.takeWhile isNameChar) :=
        ⟨by simpa using hne, fun c hc => List.mem_takeWhile_imp hc⟩
      have hhead {c : Char} (hc : ∀ r, after ≠ c :: r) :
          (after.takeWhile isNameChar).head? ≠ some c := by
        intro hs
        obtain ⟨r, hr⟩ := List.head?_eq_some_iff.1 hs
        have hprefix : c :: r <+: after := hr ▸ List.takeWhile_prefix isNameChar
        obtain ⟨z, hz⟩ := hprefix
        exact hc (r ++ z) hz.symm
      refine ⟨?_, ⟨hname, hhead hopen, hhead hclose⟩, ?_⟩
      · rw [display, List.cons_append, List.takeWhile_append_dropWhile]
      · intro c hc
        have := List.head?_dropWhile_not isNameChar after
        rw [Option.mem_def.1 hc] at this
        simpa using this
  · cases h

theorem isValue_of_read? (h : read? t = some (token, rest)) : token.isValue = false := by
  cases token with
  | value x => exact absurd rfl (not_value_of_read? h x)
  | _ => rfl

theorem spanValue_ends (t : Text) :
    (spanValue t).2 = [] ∨ (read? (spanValue t).2).isSome = true := by
  induction t with
  | nil => exact .inl rfl
  | cons c t ih =>
    rw [spanValue]
    split
    · next h => exact .inr h
    · exact ih

/-- A run of characters between tokens ends with a `#` only at the end of the text. -/
theorem spanValue_seam (t : Text) (h : (spanValue t).1.getLast? = some '#') :
    (spanValue t).2 = [] := by
  induction t with
  | nil => rfl
  | cons c t ih =>
    rw [spanValue] at h ⊢
    split at h
    · cases h
    · next hnone =>
      rw [if_neg hnone]
      cases hrun : (spanValue t).1 with
      | cons d r =>
        apply ih
        rw [hrun] at h ⊢
        simpa using h
      | nil =>
        rw [hrun] at h
        obtain rfl : c = '#' := by simpa using h
        apply (spanValue_ends t).resolve_right
        -- what is read behind the `#` would start with another `#`, and both would be a mark
        intro hsome
        have ht : (spanValue t).2 = t := by simpa [hrun] using spanValue_append t
        rw [ht] at hsome
        cases t with
        | nil => cases hsome
        | cons d t =>
          have hblank : isBlank d = true := isBlank_of_read?_eq_none (by simpa using hnone)
          have hd : d ≠ '#' := by
            rintro rfl
            exact absurd hblank (by decide)
          rw [read?_of_head_ne hd] at hsome
          cases hsome

theorem layout_placeValue (hseam : raw.getLast? = some '#' → rest = [])
    (h : Layout (start + byteLength raw) rest ps) :
    Layout start (raw ++ rest) (placeValue start raw ++ ps) := by
  unfold placeValue
  split
  · next hblank => exact h.blank_append (trim_eq_nil_iff.1 (by simpa using hblank))
  · next hne =>
    obtain ⟨trail, ht, hsplit⟩ := exists_trim_split raw
    have hl : AllBlank (raw.takeWhile isBlank) := allBlank_takeWhile raw
    generalize raw.takeWhile isBlank = lead at hl hsplit ⊢
    have hends : (value (trim raw)).EndsBefore (trail ++ rest) := by
      intro hlast c hc
      cases trail with
      | cons b trail =>
        obtain rfl : b = c := by simpa using hc
        exact ht b List.mem_cons_self
      | nil =>
        have hend : raw.getLast? = some '#' := by
          rw [hsplit, List.append_nil, List.getLast?_append, hlast]
          rfl
        rw [hseam hend] at hc
        cases hc
    have hplace : start + byteLength raw =
        start + byteLength lead + byteLength (value (trim raw)).display + byteLength trail := by
      conv_lhs => rw [hsplit]
      simp only [byteLength_append, display]
      omega
    rw [hplace] at h
    have htoken := Layout.token hl hends (h.blank_append ht)
    have hraw : raw ++ rest = lead ++ (trim raw ++ (trail ++ rest)) := by
      conv_lhs => rw [hsplit]
      simp
    rw [hraw]
    exact htoken

theorem layout_scanFrom (start : Nat) (t : Text) : Layout start t (scanFrom start t) := by
  induction start, t using scanFrom.induct with
  | case1 start t token rest hread ih =>
    rw [scanFrom_of_read? hread]
    obtain ⟨rfl, -, hends⟩ := of_read? hread
    have hnone : AllBlank [] := List.forall_mem_nil _
    exact Layout.token hnone hends ih
  | case2 start hread =>
    rw [scanFrom_nil]
    exact .blank (List.forall_mem_nil _)
  | case3 start c t hread ih =>
    have hseam := spanValue_seam (c :: t)
    rw [spanValue_of_read?_eq_none hread] at hseam
    have htext : c :: t = c :: (spanValue t).1 ++ (spanValue t).2 := by
      rw [List.cons_append, spanValue_append]
    rw [scanFrom_of_run hread]
    conv in c :: t => rw [htext]
    exact layout_placeValue hseam ih

theorem isValue_head_ofText (h : t = [] ∨ (read? t).isSome = true) :
    ∀ token ∈ (ofText t).head?, token.isValue = false := by
  rcases h with rfl | h
  · simp [ofText_nil]
  · obtain ⟨⟨token, rest⟩, hread⟩ := Option.isSome_iff_exists.1 h
    rw [ofText_of_read? hread]
    simpa using isValue_of_read? hread

theorem Separable.cons {ts : List Token} (h : Separable ts) (htoken : token.Proper)
    (hapart : ∀ u ∈ ts.head?, (token.isValue && u.isValue) = false) : Separable (token :: ts) :=
  ⟨List.forall_mem_cons.2 ⟨htoken, h.proper⟩, List.isChain_cons.2 ⟨hapart, h.apart⟩⟩

/-- The tokens of a text are proper, and no two values stand next to each other. -/
theorem separable_ofText (t : Text) : Separable (ofText t) := by
  rw [ofText, scan]
  induction (0 : Nat), t using scanFrom.induct with
  | case1 start t token rest hread ih =>
    rw [scanFrom_of_read? hread]
    refine ih.cons (of_read? hread).2.1 fun u _ => ?_
    rw [isValue_of_read? hread, Bool.false_and]
  | case2 start hread =>
    rw [scanFrom_nil]
    exact ⟨List.forall_mem_nil _, .nil⟩
  | case3 start c t hread ih =>
    have hproper {x : Text} (hx : value x ∈ (scanFrom start (c :: t)).map (·.token)) :
        (value x).Proper := of_mem_scanFrom hx
    rw [scanFrom_of_run hread, List.map_append, map_token_placeValue] at hproper ⊢
    unfold ofRun at hproper ⊢
    split
    · exact ih
    · next hne =>
      rw [if_neg hne] at hproper
      refine ih.cons (hproper (by simp)) fun u hu => ?_
      rw [map_token_scanFrom] at hu
      rw [isValue_head_ofText (spanValue_ends t) u hu, Bool.and_false]

/-! ## What a layout says about the places -/

namespace Layout

theorem le_position (h : Layout start t ps) : ∀ p ∈ ps, start ≤ p.position := by
  induction h with
  | blank _ => nofun
  | token _ _ _ ih =>
    refine List.forall_mem_cons.2 ⟨Nat.le_add_right _ _, fun p hp => ?_⟩
    have := ih p hp
    omega

theorem apart (h : Layout start t ps) : ps.Pairwise fun p q => p.stop ≤ q.position := by
  induction h with
  | blank _ => exact .nil
  | token _ _ hrest ih => exact .cons hrest.le_position ih

theorem stands (h : Layout start t ps) : ∀ p ∈ ps, p.StandsIn start t := by
  induction h with
  | blank _ => nofun
  | @token start gap rest token ps _ hends _ ih =>
    refine List.forall_mem_cons.2 ⟨⟨gap, rest, rfl, rfl, hends⟩, fun p hp => ?_⟩
    obtain ⟨s, r, rfl, hplace, hp⟩ := ih p hp
    refine ⟨gap ++ (token.display ++ s), r, by simp, ?_, hp⟩
    simp only [byteLength_append]
    omega

theorem blank_outside (h : Layout start t ps) {s r : Text} {c : Char} (ht : t = s ++ c :: r)
    (hout : ∀ p ∈ ps,
      ¬ (p.position ≤ start + byteLength s ∧ start + byteLength s < p.stop)) :
    isBlank c = true := by
  induction h generalizing s with
  | blank hgap => exact hgap c (by simp [ht])
  | @token start gap rest token ps hgap _ _ ih =>
    obtain ⟨hfirst, hlater⟩ := List.forall_mem_cons.1 hout
    rcases append_eq_append_cons ht with ⟨m, rfl⟩ | ⟨m, rfl, hm⟩
    · exact hgap c (by simp)
    · rcases append_eq_append_cons hm with ⟨m', htoken⟩ | ⟨m', rfl, hr⟩
      · refine absurd ⟨?_, ?_⟩ hfirst
        · simp only [byteLength_append]
          omega
        · have hpos := byteLength_pos (List.cons_ne_nil c m')
          simp only [PlacedToken.stop, htoken, byteLength_append]
          omega
      · refine ih hr fun p hp => ?_
        have := hlater p hp
        simp only [byteLength_append] at this
        rwa [← Nat.add_assoc, ← Nat.add_assoc] at this

end Layout

theorem Proper.display_ne_nil (h : token.Proper) : token.display ≠ [] := by
  cases token with
  | value x => exact h.1.1
  | _ => exact List.cons_ne_nil _ _

theorem Layout.covers (h : Layout start t ps) (hs : Separable (ps.map (·.token))) :
    Covers start t ps where
  increasing := by
    refine h.apart.imp_of_mem fun {p q} hp _ hpq => ?_
    have hpos := byteLength_pos (hs.proper _ (List.mem_map_of_mem hp)).display_ne_nil
    unfold PlacedToken.stop at hpq
    omega
  stands := h.stands
  apart := h.apart
  blank_outside := fun _ _ _ ht hout => h.blank_outside ht hout
  separable := hs

/-! ## The places determine the layout -/

theorem Separable.tail {ts : List Token} (h : Separable (token :: ts)) : Separable ts :=
  ⟨fun u hu => h.proper u (List.mem_cons_of_mem token hu), (List.isChain_cons.1 h.apart).2⟩

theorem Covers.behind {p : PlacedToken} {s : Text}
    (h : Covers start (s ++ (p.token.display ++ rest)) (p :: ps))
    (hplace : start + byteLength s = p.position) :
    Covers (start + byteLength s + byteLength p.token.display) rest ps where
  increasing := (List.pairwise_cons.1 h.increasing).2
  stands := by
    intro q hq
    obtain ⟨s', r, ht, hq', hends⟩ := h.stands q (List.mem_cons_of_mem p hq)
    have hstop : p.stop ≤ q.position := (List.pairwise_cons.1 h.apart).1 q hq
    have hle : byteLength (s ++ p.token.display) ≤ byteLength s' := by
      rw [byteLength_append]
      unfold PlacedToken.stop at hstop
      omega
    rw [← List.append_assoc] at ht
    obtain ⟨m, rfl⟩ := prefix_of_byteLength_le ht hle
    rw [List.append_assoc _ m] at ht
    refine ⟨m, r, List.append_cancel_left ht, ?_, hends⟩
    rw [← hq']
    simp only [byteLength_append]
    omega
  apart := (List.pairwise_cons.1 h.apart).2
  blank_outside := by
    intro s' c r ht hout
    refine h.blank_outside (s ++ (p.token.display ++ s')) c r (by simp [ht]) ?_
    have hbytes : start + byteLength (s ++ (p.token.display ++ s')) =
        start + byteLength s + byteLength p.token.display + byteLength s' := by
      simp only [byteLength_append]
      omega
    rw [hbytes]
    refine List.forall_mem_cons.2 ⟨?_, hout⟩
    unfold PlacedToken.stop
    omega
  separable := h.separable.tail

theorem Covers.layout (h : Covers start t ps) : Layout start t ps := by
  induction ps generalizing start t with
  | nil =>
    refine .blank fun c hc => ?_
    obtain ⟨s, r, rfl⟩ := List.append_of_mem hc
    exact h.blank_outside s c r rfl nofun
  | cons p ps ih =>
    obtain ⟨s, r, rfl, hplace, hends⟩ := h.stands p List.mem_cons_self
    have hgap : AllBlank s := by
      intro c hc
      obtain ⟨s₁, s₂, rfl⟩ := List.append_of_mem hc
      have hlt : start + byteLength s₁ < p.position := by
        have hpos := byteLength_pos (List.cons_ne_nil c s₂)
        rw [byteLength_append] at hplace
        omega
      refine h.blank_outside s₁ c (s₂ ++ (p.token.display ++ r)) (by simp) ?_
      refine List.forall_mem_cons.2 ⟨by omega, fun q hq => ?_⟩
      have hpq : p.position < q.position := (List.pairwise_cons.1 h.increasing).1 q hq
      omega
    have htoken := Layout.token hgap hends (ih (h.behind hplace))
    rwa [hplace] at htoken

/-! ## The layout determines the tokens -/

theorem placeValue_of_allBlank (start : Nat) (h : AllBlank gap) : placeValue start gap = [] := by
  rw [placeValue, trim_eq_nil_iff.2 h]
  rfl

/-- The value in a run is placed behind the blanks at the start of the run. -/
theorem placeValue_of_filled {trail x : Text} (start : Nat) (hx : Filled x) (hgap : AllBlank gap)
    (htrail : AllBlank trail) :
    placeValue start (gap ++ (x ++ trail)) = [⟨value x, start + byteLength gap⟩] := by
  obtain ⟨hstart, hend⟩ := solid_of_trim_eq hx.1 hx.2
  have htrim : trim (gap ++ (x ++ trail)) = x := by
    rw [trim_append_of_allBlank hgap, trim_of_solidStart (hstart.append trail),
      trimEnd_append_of_allBlank x htrail, trimEnd_of_solidEnd hend]
  have hlead : (gap ++ (x ++ trail)).takeWhile isBlank = gap := by
    obtain ⟨c, r, rfl, hc⟩ := hstart
    exact (takeWhile_append_of_head hgap (by simpa using hc)).1
  rw [placeValue, htrim, hlead, if_neg (by simpa using hx.1)]

theorem scanFrom_blank_append (start : Nat) (hgap : AllBlank gap)
    (hrest : spanValue rest = ([], rest)) :
    scanFrom start (gap ++ rest) = scanFrom (start + byteLength gap) rest := by
  rw [scanFrom_eq, spanValue_blank_append hgap, hrest]
  simp only [List.append_nil]
  rw [placeValue_of_allBlank start hgap, List.nil_append]

theorem read?_of_endsBefore (h : token.Proper) (hv : token.isValue = false)
    (hends : token.EndsBefore rest) : read? (token.display ++ rest) = some (token, rest) := by
  cases token with
  | hashtag name => exact read?_display h hv rest hends
  | value x => cases hv
  | _ => rfl

theorem head_eq_hash_of_spanValue {c : Char} {r : Text} (h : spanValue (c :: r) = ([], c :: r)) :
    c = '#' := by
  by_contra hc
  rw [spanValue, read?_of_head_ne hc] at h
  cases h

theorem Layout.exists_gap (h : Layout start t ps) (hs : Separable (ps.map (·.token)))
    (hhead : ∀ token ∈ (ps.map (·.token)).head?, token.isValue = false) :
    ∃ gap rest, t = gap ++ rest ∧ AllBlank gap ∧ spanValue rest = ([], rest) := by
  cases h with
  | blank hgap => exact ⟨t, [], by simp, hgap, rfl⟩
  | @token _ gap rest token ps hgap hends _ =>
    have hread := read?_of_endsBefore (hs.proper token List.mem_cons_self) (hhead token rfl) hends
    exact ⟨gap, token.display ++ rest, rfl, hgap, spanValue_of_isSome (by rw [hread]; rfl)⟩

theorem spanValue_value {trail x : Text} (hgap : AllBlank gap) (hloose : LooseHashes x)
    (htrail : AllBlank trail) (hends : (value x).EndsBefore (trail ++ rest))
    (hrest : spanValue rest = ([], rest)) :
    spanValue (gap ++ (x ++ trail) ++ rest) = (gap ++ (x ++ trail), rest) := by
  have hseam : (x ++ trail).getLast? = some '#' → rest = [] := by
    intro hlast
    rcases List.eq_nil_or_concat trail with rfl | ⟨init, b, rfl⟩
    · rw [List.append_nil] at hlast
      cases rest with
      | nil => rfl
      | cons c r =>
        have hblank : isBlank c = true := hends hlast c rfl
        rw [head_eq_hash_of_spanValue hrest] at hblank
        exact absurd hblank (by decide)
    · obtain rfl : b = '#' := by simpa using hlast
      exact absurd (htrail '#' (by simp)) (by decide)
  rw [List.append_assoc, spanValue_blank_append hgap,
    spanValue_of_looseHashes (hloose.append_of_allBlank htrail) hrest hseam]

/-- A text has no other tokens than those that are laid out in it. -/
theorem scanFrom_of_layout (h : Layout start t ps) (hs : Separable (ps.map (·.token))) :
    scanFrom start t = ps := by
  induction h with
  | @blank start gap hgap =>
    have hempty : spanValue [] = ([], []) := rfl
    have hscan := scanFrom_blank_append start hgap hempty
    rwa [List.append_nil, scanFrom_nil] at hscan
  | @token start gap rest token ps hgap hends hrest ih =>
    have hproper : token.Proper := hs.proper token List.mem_cons_self
    have ih := ih hs.tail
    cases hv : token.isValue with
    | false =>
      have hread := read?_of_endsBefore hproper hv hends
      have hspan := spanValue_of_isSome (Option.isSome_of_eq_some hread)
      rw [scanFrom_blank_append start hgap hspan, scanFrom_of_read? hread, ih]
    | true =>
      cases token with
      | value x =>
        -- the blanks in front of the next token are read with the value
        have hhead : ∀ u ∈ (ps.map (·.token)).head?, u.isValue = false := by
          simpa [isValue] using (List.isChain_cons.1 hs.apart).1
        obtain ⟨trail, rest', rfl, htrail, hspan⟩ := hrest.exists_gap hs.tail hhead
        have hrun := spanValue_value hgap hproper.2 htrail hends hspan
        have hplace : start + byteLength (gap ++ (x ++ trail)) =
            start + byteLength gap + byteLength x + byteLength trail := by
          simp only [byteLength_append]
          omega
        rw [display, scanFrom_blank_append _ htrail hspan] at ih
        have htext : gap ++ (x ++ (trail ++ rest')) = gap ++ (x ++ trail) ++ rest' := by simp
        rw [display, htext, scanFrom_eq, hrun, placeValue_of_filled start hproper.1 hgap htrail,
          hplace, ih]
        rfl
      | _ => cases hv

/-- Tokens are those of a text, at the places where they stand, if and only if they cover it. -/
theorem scan_eq_iff_covers (t : Text) (ps : List PlacedToken) : scan t = ps ↔ Covers 0 t ps := by
  constructor
  · rintro rfl
    exact (layout_scanFrom 0 t).covers (separable_ofText t)
  · intro h
    exact scanFrom_of_layout h.layout h.separable

/-! ## Lists of tokens that texts have -/

/-- A list of tokens is read back from writing if and only if some text has these tokens, and
that is so if and only if they can be told apart. -/
theorem ofText_displayAll_eq_iff (ts : List Token) :
    (ofText (displayAll ts) = ts ↔ ∃ t, ofText t = ts) ∧
      ((∃ t, ofText t = ts) ↔ Separable ts) := by
  have hwritten (h : Separable ts) : ofText (displayAll ts) = ts := ofText_displayAll h
  have hseparable : (∃ t, ofText t = ts) → Separable ts := by
    rintro ⟨t, rfl⟩
    exact separable_ofText t
  constructor
  · exact ⟨fun h => ⟨displayAll ts, h⟩, fun h => hwritten (hseparable h)⟩
  · exact ⟨hseparable, fun h => ⟨displayAll ts, hwritten h⟩⟩

end Token

end HashtagSearch
