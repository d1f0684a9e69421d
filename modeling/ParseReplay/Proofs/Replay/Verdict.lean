import Mathlib.Order.Basic
import ParseReplay.Proofs.Replay.Calls

/-!
# The verdict of a replay

Whether a trace can be replayed depends on two numbers only: how many symbols have been consumed,
and how deep the stack is. A machine on these two counters gives the verdict of the replay, that is
the number of actions that pass, the counters in the end, and the fault, if any. The trees, their
places, the measure of texts and the style have no part in it.

## Main definitions

* `Tally`: the two counters
* `Verdict`: how a replay ends
* `Tally.verdict total`: the machine, for an input of `total` symbols
* `Stepper.Follows`: a run that ends as a verdict says

## Main results

* `Follows.later`: a passed action before a run that follows a verdict
* `follows_verdict`: every run follows the verdict of its counters
* `verdict_replay`: the replay of a trace follows the verdict of the trace
-/

namespace ParseReplay

/-- The number of symbols consumed, and the depth of the stack. -/
structure Tally where
  consumed : ℕ
  depth : ℕ
deriving DecidableEq

/-- How a replay ends: after so many actions that pass, with these counters, and with a fault or
well. -/
structure Verdict (α : Type) where
  passed : ℕ
  tally : Tally
  fault : Option (Fault α)

namespace Verdict

variable {α : Type}

/-- The verdict with one more action passed in front. -/
def later (v : Verdict α) : Verdict α := { v with passed := v.passed + 1 }

/-- What the last call returns. -/
def result (v : Verdict α) : Except (Fault α) (List (Command α)) :=
  match v.fault with
  | none => .ok []
  | some fault => .error fault

/-- How far the replay has come after the last call. -/
def progress (v : Verdict α) : Progress :=
  match v.fault with
  | none => .finished
  | some _ => .halted

theorem progress_ne_running (v : Verdict α) : v.progress ≠ .running := by
  rcases v with ⟨passed, tally, _ | fault⟩ <;> simp [progress]

end Verdict

namespace Tally

variable {α : Type}

/-- The end of a trace needs exactly one tree. -/
def close (t : Tally) : Verdict α :=
  ⟨0, t, if t.depth = 1 then none else some (.unbalancedStack t.depth)⟩

/-- **The machine on two counters.** A shift needs a symbol that has not been consumed, a reduction
as many trees as its size. The first end of the trace, or the first action that lacks what it needs,
ends the replay. -/
def verdict (total : ℕ) : Tally → List Action → Verdict α
  | t, [] => t.close
  | t, .finish _ :: _ => t.close
  | t, .shift :: actions =>
    if t.consumed < total then (verdict total ⟨t.consumed + 1, t.depth + 1⟩ actions).later
    else ⟨0, t, some (.exhaustedInput t.consumed)⟩
  | t, .reduce r :: actions =>
    if r.size ≤ t.depth then (verdict total ⟨t.consumed, t.depth - r.size + 1⟩ actions).later
    else ⟨0, t, some (.stackUnderflow r.size t.depth)⟩

end Tally

namespace Stepper

variable {α : Type} [Scalar α]

/-- The counters of a stepper. -/
def tally (s : Stepper α) : Tally := ⟨s.consumed, s.stack.length⟩

/-- The number of actions that `n` calls pull from `available` ones, of which `passed` pass. -/
def pulled (passed available n : ℕ) : ℕ := min n (min (passed + 1) available)

/-- The run from `s` goes as the verdict says: it runs until `passed` calls have returned well, the
next call returns the verdict's result, and from then on nothing moves. One action is pulled by a
call, and none behind the one that ends the replay. -/
structure Follows (measure : TextMeasure α) (s : Stepper α) (v : Verdict α) : Prop where
  passed_le : v.passed ≤ s.cursor.rest.length
  running : ∀ n ≤ v.passed, (s.after measure n).progress = .running
  accepted : ∀ n < v.passed, ∃ batch, ((s.after measure n).step measure).result = .ok batch
  result : ((s.after measure v.passed).step measure).result = v.result
  stopped : ∀ n, v.passed < n →
    (s.after measure n).progress = v.progress ∧ (s.after measure n).tally = v.tally
  cursor : ∀ n, (s.after measure n).cursor =
    ⟨s.cursor.position + pulled v.passed s.cursor.rest.length n,
      s.cursor.rest.drop (pulled v.passed s.cursor.rest.length n)⟩

variable {measure : TextMeasure α} {s s' : Stepper α} {v : Verdict α}

/-- A passed action in front of a run that follows a verdict. -/
theorem Follows.later {a : Action} {batch : List (Command α)} (h : Follows measure s' v)
    (running : s.progress = .running) (next : s.cursor.next? = some (a, s'.cursor))
    (hs : (s.step measure).stepper = s') (hr : (s.step measure).result = .ok batch) :
    Follows measure s v.later := by
  obtain ⟨hrest, hpos⟩ := Cursor.next?_eq_some_iff.mp next
  have hafter : ∀ n, s.after measure (n + 1) = s'.after measure n := fun n => by rw [after, hs]
  refine ⟨?_, ?_, ?_, ?_, ?_, ?_⟩
  · rw [hrest]
    show v.passed + 1 ≤ s'.cursor.rest.length + 1
    exact Nat.succ_le_succ h.passed_le
  · rintro (_ | n) hn
    · exact running
    · rw [hafter]
      exact h.running n (Nat.le_of_succ_le_succ hn)
  · rintro (_ | n) hn
    · exact ⟨batch, hr⟩
    · rw [hafter]
      exact h.accepted n (Nat.lt_of_succ_lt_succ hn)
  · rw [Verdict.later, hafter]
    exact h.result
  · rintro (_ | n) hn
    · exact absurd hn (Nat.not_lt_zero _)
    · rw [hafter]
      exact h.stopped n (Nat.lt_of_succ_lt_succ hn)
  · rintro (_ | n)
    · simp [after, pulled]
    · -- The action in front is one more on either side of the minimum.
      have hp : pulled (v.passed + 1) (s'.cursor.rest.length + 1) (n + 1) =
          pulled v.passed s'.cursor.rest.length n + 1 := by
        unfold pulled
        omega
      rw [hafter, h.cursor n, hrest, List.length_cons, Verdict.later, hp, List.drop_succ_cons, hpos]
      congr 1
      omega

/-- A call that ends the replay. -/
theorem Follows.last {t : Tally} {fault : Option (Fault α)} (running : s.progress = .running)
    (hs : (s.step measure).stepper = s')
    (hr : (s.step measure).result = (Verdict.mk 0 t fault).result)
    (hp : s'.progress = (Verdict.mk 0 t fault).progress) (ht : s'.tally = t)
    (hc : s'.cursor = ⟨s.cursor.position + pulled 0 s.cursor.rest.length 1,
      s.cursor.rest.drop (pulled 0 s.cursor.rest.length 1)⟩) :
    Follows measure s ⟨0, t, fault⟩ := by
  -- The call leaves a stopped replay, so that all runs end in it.
  have hafter : ∀ n, s.after measure (n + 1) = s' := fun n => by
    rw [after, hs]
    have stopped : s'.progress ≠ .running := by
      rw [hp]
      exact Verdict.progress_ne_running _
    exact after_of_stopped measure stopped n
  refine ⟨Nat.zero_le _, ?_, ?_, hr, ?_, ?_⟩
  · rintro n hn
    rw [Nat.le_zero.mp hn]
    exact running
  · intro n hn
    exact absurd hn (Nat.not_lt_zero n)
  · rintro (_ | n) hn
    · exact absurd hn (Nat.lt_irrefl 0)
    · rw [hafter]
      exact ⟨hp, ht⟩
  · rintro (_ | n)
    · simp [after, pulled]
    · have hn : pulled 0 s.cursor.rest.length (n + 1) = pulled 0 s.cursor.rest.length 1 := by
        unfold pulled
        omega
      rw [hafter, hc, hn]

/-- The cursor behind a pulled action. -/
theorem cursor_of_next {c c' : Cursor} {a : Action} (next : c.next? = some (a, c')) :
    c' = ⟨c.position + pulled 0 c.rest.length 1, c.rest.drop (pulled 0 c.rest.length 1)⟩ := by
  obtain ⟨hrest, hpos⟩ := Cursor.next?_eq_some_iff.mp next
  have hp : pulled 0 c.rest.length 1 = 1 := by
    rw [hrest, pulled, List.length_cons]
    omega
  rw [hp, hrest, ← hpos]
  rfl

/-- The cursor behind the end of a trace. -/
theorem cursor_of_ends {c c' : Cursor} (h : c.Ends c') :
    c' = ⟨c.position + pulled 0 c.rest.length 1, c.rest.drop (pulled 0 c.rest.length 1)⟩ := by
  cases h with
  | spent next =>
    have hp : pulled 0 c.rest.length 1 = 0 := by
      rw [Cursor.next?_eq_none_iff.mp next, pulled, List.length_nil]
      omega
    rw [hp]
    rfl
  | finish next => exact cursor_of_next next

theorem tally_shifted (c : Cursor) (x : Char) (input : List Char) :
    (s.shifted measure c x input).tally = ⟨s.consumed + 1, s.stack.length + 1⟩ := by
  rw [tally, shifted_stack, List.length_append]
  rfl

theorem tally_reduced (c : Cursor) (r : Reduction) :
    (s.reduced measure c r).tally = ⟨s.consumed, s.stack.length - r.size + 1⟩ := by
  rw [tally, reduced_stack, List.length_append, List.length_take,
    Nat.min_eq_left (Nat.sub_le _ _)]
  rfl

omit [Scalar α] in
/-- The machine closes where the trace ends. -/
theorem verdict_of_ends {c c' : Cursor} (h : c.Ends c') (total : ℕ) (t : Tally) :
    t.verdict total c.rest = (t.close : Verdict α) := by
  cases h with
  | spent next => rw [Cursor.next?_eq_none_iff.mp next, Tally.verdict]
  | finish next => rw [(Cursor.next?_eq_some_iff.mp next).1, Tally.verdict]

/-- A refused action ends the run, as the machine says. -/
theorem follows_of_refused {c : Cursor} {fault : Fault α} (running : s.progress = .running)
    (refused : s.Refused c fault)
    (hs : (s.step measure).stepper = { s with cursor := c, progress := .halted })
    (hr : (s.step measure).result = .error fault) :
    Follows measure s (s.tally.verdict (s.consumed + s.input.length) s.cursor.rest) := by
  cases refused with
  | exhausted next input =>
    rw [(Cursor.next?_eq_some_iff.mp next).1, Tally.verdict, if_neg (by simp [tally, input])]
    exact .last running hs hr rfl rfl (cursor_of_next next)
  | @underflow r c next short =>
    rw [(Cursor.next?_eq_some_iff.mp next).1, Tally.verdict,
      if_neg (show ¬ r.size ≤ s.tally.depth from Nat.not_le_of_lt short)]
    exact .last running hs hr rfl rfl (cursor_of_next next)
  | unbalanced ends depth =>
    rw [verdict_of_ends ends, Tally.close, if_neg (show ¬ s.tally.depth = 1 from depth)]
    exact .last running hs hr rfl rfl (cursor_of_ends ends)

/-- **Every run follows the verdict of its counters** on the actions and the input that are left. -/
theorem follows_verdict (measure : TextMeasure α) (running : s.progress = .running) :
    Follows measure s (s.tally.verdict (s.consumed + s.input.length) s.cursor.rest) := by
  -- On the number of actions left; a passed action leaves one less.
  induction hk : s.cursor.rest.length using Nat.strongRecOn generalizing s with
  | _ k ih =>
    have effect := effect_step measure s
    generalize hs : (s.step measure).stepper = s', hr : (s.step measure).result = result at effect
    cases effect with
    | rest stopped => exact absurd running stopped
    | @shift c x input _ next symbol =>
      have hrest := (Cursor.next?_eq_some_iff.mp next).1
      have h := ih c.rest.length (by rw [← hk, hrest]; exact Nat.lt_succ_self _)
        (s := s.shifted measure c x input) running rfl
      have ht : s.consumed + 1 + input.length = s.consumed + s.input.length := by
        rw [symbol, List.length_cons]
        omega
      rw [tally_shifted] at h
      rw [hrest, Tally.verdict, if_pos (by simp [tally, symbol]), ← ht]
      exact h.later running next hs hr
    | @reduce r c _ next fits =>
      have hrest := (Cursor.next?_eq_some_iff.mp next).1
      have h := ih c.rest.length (by rw [← hk, hrest]; exact Nat.lt_succ_self _)
        (s := s.reduced measure c r) running rfl
      rw [tally_reduced] at h
      rw [hrest, Tally.verdict, if_pos (show r.size ≤ s.tally.depth from fits)]
      exact h.later running next hs hr
    | finish _ ends depth =>
      rw [verdict_of_ends ends, Tally.close, if_pos (show s.tally.depth = 1 from depth)]
      exact .last running hs hr rfl rfl (cursor_of_ends ends)
    | halt _ refused => exact follows_of_refused running refused hs hr

end Stepper

open Stepper in
/-- **The replay of a trace ends as the machine on two counters says**, whatever the measure and the
style. After at most one call more than there are actions it has stopped; every call before the last
one returns well, the last one returns the verdict; the counters in the end are those of the
machine; and each call pulls the next action until the replay ends, and none from then on. -/
theorem verdict_replay {α : Type} [Scalar α] (trace : Trace) (style : TraceStyle α)
    (measure : TextMeasure α) :
    let v : Verdict α := Tally.verdict trace.input.length ⟨0, 0⟩ trace.actions
    let s := fun n => (ofTrace trace style).after measure n
    v.passed + 1 ≤ trace.actions.length + 1 ∧
      (∀ n, (s n).progress = .running ↔ n < v.passed + 1) ∧
      (∀ n < v.passed, ∃ batch, ((s n).step measure).result = .ok batch) ∧
      ((s v.passed).step measure).result = v.result ∧
      (∀ n, v.passed < n → (s n).progress = v.progress ∧ (s n).tally = v.tally) ∧
      ∀ n, (s n).cursor.position = min n (min (v.passed + 1) trace.actions.length) ∧
        (s n).cursor.rest = trace.actions.drop (s n).cursor.position := by
  intro v s
  have h : Follows measure (ofTrace trace style) v := by
    have h := follows_verdict (s := ofTrace trace style) measure rfl
    rwa [show (ofTrace trace style).consumed + (ofTrace trace style).input.length =
      trace.input.length from (Nat.zero_add _).trans String.length_toList] at h
  refine ⟨Nat.succ_le_succ h.passed_le, ?_, h.accepted, h.result, h.stopped, ?_⟩
  · intro n
    constructor
    · intro hn
      by_contra hlt
      have hp := (h.stopped n (Nat.lt_of_succ_le (Nat.le_of_not_lt hlt))).1
      exact v.progress_ne_running (hp.symm.trans hn)
    · intro hn
      exact h.running n (Nat.le_of_lt_succ hn)
  · intro n
    have hc := h.cursor n
    have hz : (ofTrace trace style).cursor = ⟨0, trace.actions⟩ := rfl
    rw [hz, Nat.zero_add] at hc
    show (after measure (ofTrace trace style) n).cursor.position = _ ∧
      (after measure (ofTrace trace style) n).cursor.rest = _
    rw [hc]
    exact ⟨rfl, rfl⟩

/-- A reduction without children deepens the stack; the one behind it asks for more than is there,
and the last shift is never reached. -/
example :
    (Tally.verdict 3 ⟨0, 0⟩ [.shift, .reduce ⟨"A", 0⟩, .reduce ⟨"B", 3⟩, .shift] : Verdict ℕ) =
      ⟨2, ⟨1, 2⟩, some (.stackUnderflow 3 2)⟩ := rfl

end ParseReplay
