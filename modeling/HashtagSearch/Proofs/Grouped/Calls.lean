import HashtagSearch.Proofs.Grouped.Cursor
import Mathlib.Logic.Function.Iterate

/-!
# The calls of a grouped reading

A grouped search is read by two functions that call each other: an expression in parentheses
asks for a sequence, and a sequence asks for one expression after another. They share a
position in the tokens and a counter of the parentheses that are open. Here the calls are run
one step at a time on an explicit stack of callers, so that positions, counter and callers can
be followed through failures too. What a run returns is what `expression?` and `sequence?`
return of the tokens at its position; it ends after a number of steps linear in the tokens,
and parentheses can never pile up more than `maxDepth + 1` calls.
-/

namespace HashtagSearch

namespace Grouped

namespace Calls

/-! ## The machine -/

inductive Call
  | expression
  | sequence

abbrev Call.Result : Call → Type
  | .expression => Expression
  | .sequence => Sequence

/-- Who waits for the result of a call, in a run that began with the call `root`. -/
inductive Caller (root : Call) : Call → Type
  /-- Nobody in the run. -/
  | entry : Caller root root
  /-- A sequence that goes on with the expression as `push` takes it up. -/
  | sequence (isNested : Bool) (push : Expression → Sequence) (caller : Caller root .sequence) :
    Caller root .expression
  /-- An expression that puts the sequence in parentheses. -/
  | group (caller : Caller root .expression) : Caller root .sequence

/-- Where a run is: at the beginning of a call, behind an expression of a sequence, or at the
return of a call. -/
inductive Control (root : Call)
  | expression (caller : Caller root .expression)
  | sequence (isNested : Bool) (caller : Caller root .sequence)
  | joins (isNested : Bool) (s : Sequence) (caller : Caller root .sequence)
  | returned {call : Call} (result : Option call.Result) (caller : Caller root call)

structure State (root : Call) where
  control : Control root
  position : Nat
  depth : Nat

variable {root call : Call} {catalog : Catalog} {ts : List Token}

def first (e : Expression) : Sequence := ⟨[e], none⟩

/-- The caller goes on with the result. A failure fails the caller, and the counter of open
parentheses is left as the failure found it. -/
def Caller.resume (position depth : Nat) :
    {call : Call} → Option call.Result → Caller root call → State root
  | _, result, .entry => ⟨.returned result .entry, position, depth⟩
  | _, some e, .sequence isNested push caller => ⟨.joins isNested (push e) caller, position, depth⟩
  | _, some s, .group caller =>
    ⟨.returned (some (Expression.group (s.toGroup true))) caller, position, depth - 1⟩
  | _, none, .sequence _ _ caller => ⟨.returned none caller, position, depth⟩
  | _, none, .group caller => ⟨.returned none caller, position, depth⟩

def step (catalog : Catalog) (ts : List Token) : State root → State root
  | ⟨.expression caller, p, depth⟩ =>
    if ts[p]? = some .groupOpen then
      if maxDepth < depth + 1 then ⟨.returned none caller, p + 1, depth + 1⟩
      else ⟨.sequence true (.group caller), p + 1, depth + 1⟩
    else
      match conditionAt catalog ts p with
      | (c, q) => ⟨.returned (c.map Expression.condition) caller, q, depth⟩
  | ⟨.sequence isNested caller, p, depth⟩ =>
    ⟨.expression (.sequence isNested first caller), p, depth⟩
  | ⟨.joins isNested s caller, p, depth⟩ =>
    match ts[p]?.bind Token.join? with
    | some join =>
      match s.push? join with
      | some push => ⟨.expression (.sequence isNested push caller), p + 1, depth⟩
      | none => ⟨.returned none caller, p, depth⟩
    | none =>
      if isNested then
        if ts[p]? = some .groupClose then ⟨.returned (some s) caller, p + 1, depth⟩
        else ⟨.returned none caller, p, depth⟩
      else ⟨.returned (some s) caller, p, depth⟩
  | ⟨.returned result caller, p, depth⟩ => caller.resume p depth result

/-- Everything that a step can do before the run has returned. -/
inductive Step (catalog : Catalog) (ts : List Token) : State root → State root → Prop
  | tooDeep {caller p depth} (opens : ts[p]? = some .groupOpen) (deep : maxDepth ≤ depth) :
    Step catalog ts ⟨.expression caller, p, depth⟩ ⟨.returned none caller, p + 1, depth + 1⟩
  | opens {caller p depth} (opens : ts[p]? = some .groupOpen) (room : depth < maxDepth) :
    Step catalog ts ⟨.expression caller, p, depth⟩
      ⟨.sequence true (.group caller), p + 1, depth + 1⟩
  | condition {caller p depth} (plain : ts[p]? ≠ some .groupOpen) :
    Step catalog ts ⟨.expression caller, p, depth⟩
      ⟨.returned ((conditionAt catalog ts p).1.map Expression.condition) caller,
        (conditionAt catalog ts p).2, depth⟩
  | first {isNested caller p depth} :
    Step catalog ts ⟨.sequence isNested caller, p, depth⟩
      ⟨.expression (.sequence isNested first caller), p, depth⟩
  | joined {isNested s caller p depth t join push} (at_p : ts[p]? = some t)
      (joins : t.join? = some join) (same : s.push? join = some push) :
    Step catalog ts ⟨.joins isNested s caller, p, depth⟩
      ⟨.expression (.sequence isNested push caller), p + 1, depth⟩
  | mixed {isNested s caller p depth t join} (at_p : ts[p]? = some t)
      (joins : t.join? = some join) (mixed : s.push? join = none) :
    Step catalog ts ⟨.joins isNested s caller, p, depth⟩ ⟨.returned none caller, p, depth⟩
  | ends {s caller p depth} (noJoin : ts[p]?.bind Token.join? = none) :
    Step catalog ts ⟨.joins false s caller, p, depth⟩ ⟨.returned (some s) caller, p, depth⟩
  | closes {s caller p depth} (close : ts[p]? = some .groupClose) :
    Step catalog ts ⟨.joins true s caller, p, depth⟩ ⟨.returned (some s) caller, p + 1, depth⟩
  | unclosed {s caller p depth} (noJoin : ts[p]?.bind Token.join? = none)
      (stillOpen : ts[p]? ≠ some .groupClose) :
    Step catalog ts ⟨.joins true s caller, p, depth⟩ ⟨.returned none caller, p, depth⟩
  | takenUp {e isNested push caller p depth} :
    Step catalog ts ⟨.returned (some e) (.sequence isNested push caller), p, depth⟩
      ⟨.joins isNested (push e) caller, p, depth⟩
  | grouped {s caller p depth} :
    Step catalog ts ⟨.returned (some s) (.group caller), p, depth⟩
      ⟨.returned (some (Expression.group (s.toGroup true))) caller, p, depth - 1⟩
  | sequenceFails {isNested push caller p depth} :
    Step catalog ts ⟨.returned none (.sequence isNested push caller), p, depth⟩
      ⟨.returned none caller, p, depth⟩
  | groupFails {caller p depth} :
    Step catalog ts ⟨.returned none (.group caller), p, depth⟩ ⟨.returned none caller, p, depth⟩

/-- The run has returned. -/
def State.Over (s : State root) : Prop := ∃ result, s.control = .returned result .entry

theorem step_of_over {s : State root} (h : s.Over) : step catalog ts s = s := by
  obtain ⟨control, p, depth⟩ := s
  obtain ⟨result, h⟩ := h
  subst h
  rfl

theorem step_cases (catalog : Catalog) (ts : List Token) (s : State root) :
    s.Over ∨ Step catalog ts s (step catalog ts s) := by
  obtain ⟨control, p, depth⟩ := s
  cases control with
  | expression caller =>
    right
    simp only [step]
    split
    · next opens =>
      split
      · next deep => exact .tooDeep opens (Nat.lt_succ_iff.1 deep)
      · next room => exact .opens opens (by omega)
    · next plain => exact .condition plain
  | sequence isNested caller => exact .inr .first
  | joins isNested s caller =>
    right
    simp only [step]
    split
    · next join hj =>
      obtain ⟨t, ht, hj⟩ := Option.bind_eq_some_iff.1 hj
      split
      · next push same => exact .joined ht hj same
      · next mixed => exact .mixed ht hj mixed
    · next noJoin =>
      cases isNested with
      | false => exact .ends noJoin
      | true =>
        by_cases close : ts[p]? = some .groupClose
        · simpa [close] using Step.closes close
        · simpa [close] using Step.unclosed noJoin close
  | returned result caller =>
    cases caller with
    | entry => exact .inl ⟨result, rfl⟩
    | sequence isNested push caller =>
      right
      cases result with
      | none => exact .sequenceFails
      | some e => exact .takenUp
    | group caller =>
      right
      cases result with
      | none => exact .groupFails
      | some s => exact .grouped

/-! ## Positions and counters -/

/-- How many expressions wait for what is in their parentheses. -/
def Caller.waiting : {call : Call} → Caller root call → Nat
  | _, .entry => 0
  | _, .sequence _ _ caller => caller.waiting
  | _, .group caller => caller.waiting + 1

def Caller.height : {call : Call} → Caller root call → Nat
  | _, .entry => 0
  | _, .sequence _ _ caller => caller.height + 1
  | _, .group caller => caller.height + 1

namespace Control

@[simp] def waiting : Control root → Nat
  | .expression caller => caller.waiting
  | .sequence _ caller => caller.waiting
  | .joins _ _ caller => caller.waiting
  | .returned _ caller => caller.waiting

/-- How many expression calls are open, the one that runs and those that wait. -/
@[simp] def nesting : Control root → Nat
  | .expression caller => caller.waiting + 1
  | control => control.waiting

@[simp] def failed : Control root → Bool
  | .returned none _ => true
  | _ => false

@[simp] def hasRead : Control root → Bool
  | .joins _ _ _ => true
  | .returned (some _) _ => true
  | _ => false

/-- Twice the calls that wait, and the steps that are left before the position moves. -/
@[simp] def steps : Control root → Nat
  | .expression caller => 2 * caller.height + 1
  | .sequence _ caller => 2 * caller.height + 4
  | .joins _ _ caller => 2 * caller.height + 1
  | .returned _ caller => 2 * caller.height

end Control

/-- A bound of the steps that are left: what waits can grow only with the position. -/
def State.left (ts : List Token) (s : State root) : Nat :=
  6 * (ts.length - s.position) + s.control.steps

/-- Behind the position where the run began, the counter is what it was then and the
parentheses opened since, until something fails. -/
structure Sound (ts : List Token) (position depth : Nat) (s : State root) : Prop where
  from_le : position ≤ s.position
  le_length : s.position ≤ ts.length
  depth_eq : s.control.failed = false → s.depth = depth + s.control.waiting
  waiting_le : depth + s.control.waiting ≤ maxDepth
  advanced : s.control.hasRead → position < s.position

theorem lt_length {p : Nat} {t : Token} (h : ts[p]? = some t) : p < ts.length :=
  (List.getElem?_eq_some_iff.1 h).1

theorem Step.position_le {s s' : State root} (h : Step catalog ts s s') :
    s.position ≤ s'.position := by
  cases h with
  | condition plain => exact (follows_conditionAt catalog ts).forward _
  | _ => simp

theorem Step.left_lt {s s' : State root} (h : Step catalog ts s s') (hs : s.position ≤ ts.length) :
    s'.left ts < s.left ts := by
  cases h with
  | tooDeep opens | opens opens | joined opens | closes opens =>
    have := lt_length opens
    simp only [State.left, Control.steps, Caller.height]
    omega
  | @condition _ p _ plain =>
    have := (follows_conditionAt catalog ts).forward p
    simp only [State.left, Control.steps]
    omega
  | _ =>
    simp only [State.left, Control.steps, Caller.height]
    omega

theorem Sound.step {position depth : Nat} {s s' : State root} (hs : Sound ts position depth s)
    (h : Step catalog ts s s') : Sound ts position depth s' := by
  obtain ⟨from_le, le_length, depth_eq, waiting_le, advanced⟩ := hs
  have from_le' := Nat.le_trans from_le h.position_le
  cases h with
  | tooDeep opens deep => exact ⟨from_le', lt_length opens, nofun, waiting_le, nofun⟩
  | @opens caller p d opens room =>
    have hd : d = depth + caller.waiting := depth_eq rfl
    refine ⟨from_le', lt_length opens, fun _ => congrArg (· + 1) hd, ?_, nofun⟩
    show depth + (caller.waiting + 1) ≤ maxDepth
    omega
  | @condition caller p d plain =>
    have within := (follows_conditionAt catalog ts).within p le_length
    refine ⟨from_le', within, fun _ => depth_eq rfl, waiting_le, fun hr => ?_⟩
    cases hc : (conditionAt catalog ts p).1 with
    | none => simp [hc] at hr
    | some c => exact Nat.lt_of_le_of_lt from_le (lt_of_conditionAt hc)
  | first => exact ⟨from_le, le_length, depth_eq, waiting_le, nofun⟩
  | joined at_p joins same =>
    exact ⟨from_le', lt_length at_p, fun _ => depth_eq rfl, waiting_le, nofun⟩
  | mixed at_p joins mixed => exact ⟨from_le, le_length, nofun, waiting_le, nofun⟩
  | ends noJoin =>
    exact ⟨from_le, le_length, fun _ => depth_eq rfl, waiting_le, fun _ => advanced rfl⟩
  | closes close =>
    exact ⟨from_le', lt_length close, fun _ => depth_eq rfl, waiting_le,
      fun _ => Nat.lt_succ_of_le from_le⟩
  | unclosed noJoin stillOpen => exact ⟨from_le, le_length, nofun, waiting_le, nofun⟩
  | takenUp => exact ⟨from_le, le_length, fun _ => depth_eq rfl, waiting_le, fun _ => advanced rfl⟩
  | @grouped _ caller p d =>
    have hd : d = depth + (caller.waiting + 1) := depth_eq rfl
    have hw : depth + (caller.waiting + 1) ≤ maxDepth := waiting_le
    refine ⟨from_le, le_length, fun _ => congrArg (· - 1) hd, ?_, fun _ => advanced rfl⟩
    show depth + caller.waiting ≤ maxDepth
    omega
  | sequenceFails => exact ⟨from_le, le_length, nofun, waiting_le, nofun⟩
  | @groupFails caller =>
    have hw : depth + (caller.waiting + 1) ≤ maxDepth := waiting_le
    exact ⟨from_le, le_length, nofun, Nat.le_of_succ_le hw, nofun⟩

/-! ## What a run returns -/

def expressionOf (catalog : Catalog) (levels : Nat) (ts : List Token) :
    Option (Expression × List Token) :=
  bare (expression? catalog levels ts)

def sequenceOf (catalog : Catalog) (levels : Nat) (ts : List Token) :
    Option (Sequence × List Token) :=
  bare (sequence? catalog levels ts)

/-- What the sequence becomes with the joins at the head of the tokens, and the tokens behind
them. -/
def continuationOf (catalog : Catalog) (levels : Nat) (s : Sequence) (ts : List Token) :
    Option (Sequence × List Token) :=
  bare (continue? catalog levels s ts)

/-- A sequence in parentheses must be followed by `#)`, which belongs to it. -/
def closed (isNested : Bool) (result : Option (Sequence × List Token)) :
    Option (Sequence × List Token) :=
  result.bind fun (s, rest) =>
    if isNested then
      if rest.head? = some .groupClose then some (s, rest.tail) else none
    else some (s, rest)

@[simp] theorem closed_false (result : Option (Sequence × List Token)) :
    closed false result = result := by
  cases result <;> rfl

/-- What the run returns if the call on top returns `result` where `levels` more parentheses
may be opened. -/
def Caller.outcome (catalog : Catalog) : {call : Call} → (levels : Nat) → Caller root call →
    Option (call.Result × List Token) → Option (root.Result × List Token)
  | _, _, .entry, result => result
  | _, levels, .sequence isNested push caller, result =>
    caller.outcome catalog levels <| closed isNested <| result.bind fun (e, rest) =>
      continuationOf catalog levels (push e) rest
  | _, levels, .group caller, result =>
    caller.outcome catalog (levels + 1) <| result.map fun (s, rest) =>
      (.group (s.toGroup true), rest)

/-- What the run returns from here on, by the readers of the remaining tokens. -/
def State.outcome (catalog : Catalog) (ts : List Token) (s : State root) :
    Option (root.Result × List Token) :=
  let rest := ts.drop s.position
  let levels := maxDepth - s.depth
  match s.control with
  | .expression caller => caller.outcome catalog levels (expressionOf catalog levels rest)
  | .sequence isNested caller =>
    caller.outcome catalog levels (closed isNested (sequenceOf catalog levels rest))
  | .joins isNested q caller =>
    caller.outcome catalog levels (closed isNested (continuationOf catalog levels q rest))
  | .returned result caller => caller.outcome catalog levels (result.map (·, rest))

theorem Caller.outcome_none (caller : Caller root call) (levels : Nat) :
    caller.outcome catalog levels none = none := by
  induction caller generalizing levels with
  | entry => rfl
  | sequence isNested push caller ih => exact ih levels
  | group caller ih => exact ih (levels + 1)

theorem expressionOf_groupOpen_zero (rest : List Token) :
    expressionOf catalog 0 (.groupOpen :: rest) = none := by
  simp [expressionOf, expression?, bare]

theorem expressionOf_groupOpen (levels : Nat) (rest : List Token) :
    expressionOf catalog (levels + 1) (.groupOpen :: rest) =
      (closed true (sequenceOf catalog levels rest)).map fun (s, rest) =>
        (.group (s.toGroup true), rest) := by
  rw [expressionOf, sequenceOf, expression?]
  cases h : sequence? catalog levels rest with
  | none => rfl
  | some result =>
    obtain ⟨s, rest', hr⟩ := result
    cases rest' with
    | nil => rfl
    | cons t rest' => cases t <;> rfl

theorem expressionOf_of_ne (levels : Nat) (h : ts.head? ≠ some .groupOpen) :
    expressionOf catalog levels ts =
      (conditionOf catalog ts).map fun (c, rest) => (.condition c, rest) := by
  rw [expressionOf, expression?]
  · simp [conditionOf, bare, Function.comp_def]
  · rintro inner rfl
    exact h rfl

theorem sequenceOf_eq (levels : Nat) (ts : List Token) :
    sequenceOf catalog levels ts =
      (expressionOf catalog levels ts).bind fun (e, rest) =>
        continuationOf catalog levels (first e) rest := by
  rw [sequenceOf, expressionOf, sequence?]
  cases h : expression? catalog levels ts <;>
    simp [continuationOf, bare, first, Function.comp_def]

section Continuation

variable {levels : Nat} {s : Sequence} {t : Token} {join : Join}

theorem continuationOf_join {push : Expression → Sequence} (ht : t.join? = some join)
    (hs : s.push? join = some push) : continuationOf catalog levels s (t :: ts) =
      (expressionOf catalog levels ts).bind fun (e, rest) =>
        continuationOf catalog levels (push e) rest := by
  rw [continuationOf, expressionOf, continue?]
  cases h : expression? catalog levels ts <;>
    simp [continuationOf, bare, ht, hs, Function.comp_def]

theorem continuationOf_mixed (ht : t.join? = some join) (hs : s.push? join = none) :
    continuationOf catalog levels s (t :: ts) = none := by
  rw [continuationOf, continue?]
  simp [bare, ht, hs]

theorem continuationOf_over (h : ts.head?.bind Token.join? = none) :
    continuationOf catalog levels s ts = some (s, ts) := by
  rw [continuationOf]
  cases ts with
  | nil => simp [continue?, bare]
  | cons t ts =>
    rw [continue?]
    simp [bare, show t.join? = none from h]

end Continuation

/-- A step changes nothing about what the run returns. -/
theorem Sound.outcome_step {position depth : Nat} {s s' : State root}
    (hs : Sound ts position depth s) (h : Step catalog ts s s') :
    s'.outcome catalog ts = s.outcome catalog ts := by
  have ended {p : Nat} {q : Sequence} {levels : Nat} (h : ts[p]?.bind Token.join? = none) :
      continuationOf catalog levels q (ts.drop p) = some (q, ts.drop p) :=
    continuationOf_over (by rwa [List.head?_drop])
  cases h with
  | @tooDeep caller p d opens deep =>
    simp only [State.outcome, drop_of_getElem? opens, Nat.sub_eq_zero_of_le deep,
      expressionOf_groupOpen_zero, Option.map_none]
    exact (caller.outcome_none _).trans (caller.outcome_none _).symm
  | @opens caller p d opens room =>
    have hl : maxDepth - d = maxDepth - (d + 1) + 1 := by omega
    simp only [State.outcome, drop_of_getElem? opens, hl, expressionOf_groupOpen, Caller.outcome]
  | @condition caller p d plain =>
    have hne : (ts.drop p).head? ≠ some .groupOpen := by rwa [List.head?_drop]
    have hread := (follows_conditionAt catalog ts).agrees p
    simp only [State.outcome, expressionOf_of_ne _ hne, ← hread, Option.map_map, Function.comp_def]
  | first => simp only [State.outcome, sequenceOf_eq, Caller.outcome]
  | joined at_p joins same =>
    simp only [State.outcome, drop_of_getElem? at_p, continuationOf_join joins same, Caller.outcome]
  | mixed at_p joins mixed =>
    simp only [State.outcome, drop_of_getElem? at_p, continuationOf_mixed joins mixed]
    rfl
  | ends noJoin => simp [State.outcome, ended noJoin, closed]
  | closes close =>
    simp [State.outcome, ended (show _ = none by rw [close]; rfl), closed, List.head?_drop, close]
  | unclosed noJoin stillOpen =>
    simp [State.outcome, ended noJoin, closed, List.head?_drop, stillOpen]
  | takenUp => rfl
  | @grouped q caller p d =>
    have hd : d = depth + (caller.waiting + 1) := hs.depth_eq rfl
    have hw : depth + (caller.waiting + 1) ≤ maxDepth := hs.waiting_le
    have hl : maxDepth - (d - 1) = maxDepth - d + 1 := by omega
    simp only [State.outcome, hl, Caller.outcome, Option.map_some]
  | sequenceFails => rfl
  | @groupFails caller => exact (caller.outcome_none _).trans (caller.outcome_none _).symm

/-! ## Runs -/

def State.enter (isNested : Bool) (position depth : Nat) : (call : Call) → State call
  | .expression => ⟨.expression .entry, position, depth⟩
  | .sequence => ⟨.sequence isNested .entry, position, depth⟩

def Call.read (catalog : Catalog) (isNested : Bool) (levels : Nat) (ts : List Token) :
    (call : Call) → Option (call.Result × List Token)
  | .expression => expressionOf catalog levels ts
  | .sequence => closed isNested (sequenceOf catalog levels ts)

section Runs

variable {position depth : Nat} {s : State root}

theorem Sound.enter (isNested : Bool) (call : Call) (hp : position ≤ ts.length)
    (hd : depth ≤ maxDepth) : Sound ts position depth (.enter isNested position depth call) := by
  cases call with
  | expression => exact ⟨Nat.le_refl _, hp, fun _ => rfl, hd, nofun⟩
  | sequence => exact ⟨Nat.le_refl _, hp, fun _ => rfl, hd, nofun⟩

theorem outcome_enter (isNested : Bool) (call : Call) :
    (State.enter isNested position depth call).outcome catalog ts =
      call.read catalog isNested (maxDepth - depth) (ts.drop position) := by
  cases call <;> rfl

/-- What every state of a run has in common with its first. -/
theorem Sound.run (catalog : Catalog) (hs : Sound ts position depth s) (n : Nat) :
    Sound ts position depth ((Calls.step catalog ts)^[n] s) ∧
      ((Calls.step catalog ts)^[n] s).outcome catalog ts = s.outcome catalog ts := by
  induction n generalizing s with
  | zero => exact ⟨hs, rfl⟩
  | succ n ih =>
    rw [Function.iterate_succ_apply]
    obtain h | h := step_cases catalog ts s
    · rw [step_of_over h]
      exact ih hs
    · rw [← hs.outcome_step h]
      exact ih (hs.step h)

/-- A run returns before the steps that are left have been made. -/
theorem Sound.exists_over (catalog : Catalog) (hs : Sound ts position depth s) :
    ∃ n ≤ s.left ts, ((Calls.step catalog ts)^[n] s).Over := by
  induction hm : s.left ts using Nat.strong_induction_on generalizing s with
  | _ m ih =>
    subst hm
    obtain h | h := step_cases catalog ts s
    · exact ⟨0, Nat.zero_le _, h⟩
    · have hlt := h.left_lt hs.le_length
      obtain ⟨n, hn, hover⟩ := ih _ hlt (hs.step h) rfl
      exact ⟨n + 1, by omega, hover⟩

theorem Sound.nesting_le (hs : Sound ts position depth s) :
    depth + s.control.nesting ≤ maxDepth + 1 := by
  have hw := hs.waiting_le
  cases h : s.control <;> simp only [h, Control.waiting, Control.nesting] at hw ⊢ <;> omega

theorem position_le_step (s : State root) : s.position ≤ (step catalog ts s).position := by
  obtain h | h := step_cases catalog ts s
  · rw [step_of_over h]
  · exact h.position_le

/-- A call returns what the readers of the remaining tokens do. A success has moved the position
and leaves the counter as it was. -/
theorem exists_returned (catalog : Catalog) (call : Call) (isNested : Bool)
    (hp : position ≤ ts.length) (hd : depth ≤ maxDepth) :
    ∃ n ≤ 6 * (ts.length - position) + 4, ∃ result final,
      (step catalog ts)^[n] (.enter isNested position depth call) = final ∧
      final.control = .returned result .entry ∧
      (result.isSome → final.depth = depth ∧ position < final.position) ∧
      result.map (·, ts.drop final.position) =
        call.read catalog isNested (maxDepth - depth) (ts.drop position) := by
  have hs := Sound.enter isNested call hp hd
  have hleft : (State.enter isNested position depth call).left ts ≤
      6 * (ts.length - position) + 4 := by
    cases call <;> simp [State.left, State.enter, Caller.height]
  obtain ⟨n, hn, result, hr⟩ := hs.exists_over catalog
  obtain ⟨hsound, houtcome⟩ := hs.run catalog n
  refine ⟨n, Nat.le_trans hn hleft, result, _, rfl, hr, fun hsome => ?_, ?_⟩
  · obtain ⟨e, rfl⟩ := Option.isSome_iff_exists.1 hsome
    have hdepth := hsound.depth_eq (by simp [hr])
    rw [hr] at hdepth
    exact ⟨hdepth, hsound.advanced (by simp [hr])⟩
  · rw [← outcome_enter, ← houtcome, State.outcome, hr]
    rfl

/-- The tree of a text is what a run from the first token returns, if the confirmation is all
that it leaves. -/
theorem tree?_eq_run (catalog : Catalog) (ts : List Token) :
    ∃ n result final, (step catalog ts)^[n] (.enter false 0 0 .sequence) = final ∧
      final.control = .returned result .entry ∧
      tree? catalog ts =
        if ts.drop final.position = [.confirm] then result.map Sequence.root else none := by
  obtain ⟨n, -, result, final, hrun, hcontrol, -, hread⟩ :=
    exists_returned catalog .sequence false (Nat.zero_le ts.length) (Nat.zero_le maxDepth)
  refine ⟨n, result, final, hrun, hcontrol, ?_⟩
  replace hread : result.map (·, ts.drop final.position) = sequenceOf catalog maxDepth ts := by
    simpa [Call.read] using hread
  rw [tree?]
  cases hs : sequence? catalog maxDepth ts with
  | none =>
    have hnone : result = none := by simpa [sequenceOf, bare, hs] using hread
    simp [hnone]
  | some read =>
    obtain ⟨s, rest, hrest⟩ := read
    obtain ⟨q, rfl, he⟩ := Option.map_eq_some_iff.1 (hread.trans (by rw [sequenceOf, hs]; rfl))
    cases he
    generalize ts.drop final.position = rest at hrest ⊢
    split
    · next heq =>
      cases heq
      simp
    · next hne =>
      rw [if_neg]
      rintro rfl
      exact hne _ _ rfl

end Runs

/-- The two calls that read a grouped search are in bounds from every position and every
counter. The position never goes back and never passes the end, whether the call succeeds or
fails; counting the parentheses that were open before, no more than `maxDepth + 1` expressions
are open at once; and the call returns, with the counter as it was and a position moved on if
it succeeds, what the readers of the remaining tokens return. -/
theorem run_in_bounds (catalog : Catalog) (ts : List Token) (call : Call) (isNested : Bool)
    {position depth : Nat} (hp : position ≤ ts.length) (hd : depth ≤ maxDepth) :
    let run n := (step catalog ts)^[n] (.enter isNested position depth call)
    (∀ n, (run n).position ≤ (run (n + 1)).position ∧ (run n).position ≤ ts.length) ∧
    (∀ n, depth + (run n).control.nesting ≤ maxDepth + 1) ∧
    ∃ n ≤ 6 * (ts.length - position) + 4, ∃ result final,
      run n = final ∧ final.control = .returned result .entry ∧
      (result.isSome → final.depth = depth ∧ position < final.position) ∧
      result.map (·, ts.drop final.position) =
        call.read catalog isNested (maxDepth - depth) (ts.drop position) := by
  intro run
  have sound (n : Nat) : Sound ts position depth (run n) :=
    ((Sound.enter isNested call hp hd).run catalog n).1
  refine ⟨fun n => ⟨?_, (sound n).le_length⟩, fun n => (sound n).nesting_le,
    exists_returned catalog call isNested hp hd⟩
  rw [show run (n + 1) = step catalog ts (run n) from Function.iterate_succ_apply' ..]
  exact position_le_step (run n)

/-- Of seventy parentheses in a row the run opens as many as it may and one more. -/
theorem run_in_bounds_open_run :
    let ts := List.replicate 70 Token.groupOpen
    let run n := (step [] ts)^[n] (.enter false 0 0 .sequence)
    (0 ≤ ts.length ∧ 0 ≤ maxDepth ∧ ∀ n, 0 + (run n).control.nesting ≤ maxDepth + 1) ∧
      (run 129).control.nesting = maxDepth + 1 ∧ (run 200).control.failed = true := by
  intro ts run
  refine ⟨⟨Nat.zero_le _, Nat.zero_le _, ?_⟩, by decide +kernel, by decide +kernel⟩
  exact (run_in_bounds [] ts .sequence false (Nat.zero_le _) (Nat.zero_le _)).2.1

-- The last parentheses that may be opened are also closed again; one level deeper they fail.
example :
    let catalog : Catalog := [⟨"name".toList, [], true, .text⟩]
    let ts : List Token :=
      [.groupOpen, .hashtag "name".toList, .hashtag "contains".toList, .value "asp".toList,
        .groupClose]
    let run depth n := (step catalog ts)^[n] (.enter false 0 depth .expression)
    ((run 63 6).control.hasRead ∧ (run 63 6).position = 5 ∧ (run 63 6).depth = 63) ∧
      (run 64 1).control.failed := by
  decide +kernel

end Calls

end Grouped

end HashtagSearch
