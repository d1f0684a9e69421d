import Mathlib.Data.List.Infix
import ParseReplay.Proofs.Replay.Calls

/-!
# The listing of a forest

The nodes of the stack's trees in postorder, each as its label with the number of its children,
spell the shifts and reductions that have been replayed: the stack is a faithful record of the
trace, however deep a reduction has moved the trees below it.

## Main definitions

* `listing`: the nodes of a forest as labels with numbers of children
* `spelling input actions`: the entries that shifts and reductions stand for
* `Stepper.replays`, `Stepper.replayed`: the actions that calls replay
* `atShifts`: the entries that stand for shifts

## Main results

* `spelling_replayed`: a run adds to the listing what its actions spell
* `replayed_isPrefix`, `length_replayed`: actions are replayed in the order of the trace, without a
  gap, and one by each call that does not end the replay
* `listing_after`: the replay of a trace is faithful
-/

namespace ParseReplay

variable {α : Type}

/-- The nodes of a forest in postorder, as labels with numbers of children. -/
def listing (ts : List (ParseTree α)) : List (String × ℕ) :=
  (ParseTree.postorderForest ts).map fun t => (t.label, t.children.length)

/-- The entries that actions stand for, one each: a shift for the next symbol of the input, without
children, and a reduction for its symbol with as many children as its size. There are none where
the input is too short, and none for the end of a trace. -/
def spelling : List Char → List Action → Option (List (String × ℕ))
  | _, [] => some []
  | x :: input, .shift :: actions => (spelling input actions).map ((String.singleton x, 0) :: ·)
  | input, .reduce r :: actions => (spelling input actions).map ((r.symbol, r.size) :: ·)
  | _, _ => none

/-- The members of a list at the places of the shifts in a list of actions. -/
def atShifts {β : Type} (actions : List Action) (xs : List β) : List β :=
  ((actions.zip xs).filter fun e => e.1 = .shift).map Prod.snd

/-- The shifts of a spelling are the symbols at the front of the input. -/
theorem atShifts_spelling {input : List Char} {actions : List Action} {es : List (String × ℕ)}
    (h : spelling input actions = some es) :
    atShifts actions (es.map Prod.fst) =
      (input.take (actions.count .shift)).map String.singleton := by
  induction actions generalizing input es with
  | nil => simp [atShifts]
  | cons a actions ih =>
    cases a with
    | shift =>
      cases input with
      | nil => simp [spelling] at h
      | cons x input =>
        obtain ⟨es, he, rfl⟩ := Option.map_eq_some_iff.mp h
        simpa [atShifts] using ih he
    | reduce r =>
      rw [spelling] at h
      obtain ⟨es, he, rfl⟩ := Option.map_eq_some_iff.mp h
      simpa [atShifts] using ih he
    | finish result => simp [spelling] at h

namespace Stepper

variable [Scalar α]

/-- The shift or the reduction that the next call replays, if it pulls one and does not refuse
it. -/
def replays (measure : TextMeasure α) (s : Stepper α) : Option Action :=
  match s.progress, s.cursor.next?, (s.step measure).result with
  | .running, some (.shift, _), .ok _ => some .shift
  | .running, some (.reduce r, _), .ok _ => some (.reduce r)
  | _, _, _ => none

/-- The shifts and reductions that the first `n` calls replay. -/
def replayed (measure : TextMeasure α) : Stepper α → ℕ → List Action
  | _, 0 => []
  | s, n + 1 => (s.replays measure).toList ++ (s.step measure).stepper.replayed measure n

variable {measure : TextMeasure α} {s : Stepper α}

theorem replays_of_stopped (h : s.progress ≠ .running) : s.replays measure = none := by
  cases hp : s.progress with
  | running => exact absurd hp h
  | finished => simp [replays, hp]
  | halted => simp [replays, hp]

theorem replayed_of_stopped (h : s.progress ≠ .running) (n : ℕ) : s.replayed measure n = [] := by
  induction n with
  | zero => rfl
  | succ n ih =>
    rw [replayed, replays_of_stopped h, step_of_stopped measure h, ih]
    rfl

variable (measure s)

/-- A call shifts, reduces, or replays nothing. In the last case no further call replays anything
either. -/
theorem replays_cases :
    (∃ c x input, s.cursor.next? = some (.shift, c) ∧ s.input = x :: input ∧
        s.replays measure = some .shift ∧
        (s.step measure).stepper = s.shifted measure c x input) ∨
      (∃ c r, s.cursor.next? = some (.reduce r, c) ∧ r.size ≤ s.stack.length ∧
        s.replays measure = some (.reduce r) ∧
        (s.step measure).stepper = s.reduced measure c r) ∨
      (s.replays measure = none ∧ (s.step measure).stepper.progress ≠ .running ∧
        (s.step measure).stepper.stack = s.stack ∧
        (s.step measure).stepper.consumed = s.consumed ∧
        (s.step measure).stepper.place = s.place) := by
  by_cases running : s.progress = .running
  swap
  · rw [step_of_stopped measure running]
    exact Or.inr (Or.inr ⟨replays_of_stopped running, running, rfl, rfl, rfl⟩)
  have effect := effect_step measure s
  unfold replays
  generalize (s.step measure).stepper = s', (s.step measure).result = result at effect ⊢
  cases effect with
  | rest stopped => exact absurd running stopped
  | shift running next symbol =>
    exact Or.inl ⟨_, _, _, next, symbol, by simp [running, next], rfl⟩
  | reduce running next fits =>
    exact Or.inr (Or.inl ⟨_, _, next, fits, by simp [running, next], rfl⟩)
  | finish running ends depth =>
    -- The last call may pull an action, but none that is replayed.
    refine Or.inr (Or.inr ⟨?_, by simp, rfl, rfl, rfl⟩)
    cases ends with
    | spent next => simp [next]
    | finish next => simp [next]
  | halt running refused => exact Or.inr (Or.inr ⟨by simp, by simp, rfl, rfl, rfl⟩)

/-- Actions are replayed in the order of the trace, without a gap. -/
theorem replayed_isPrefix (n : ℕ) : s.replayed measure n <+: s.cursor.rest := by
  induction n generalizing s with
  | zero => exact List.nil_prefix
  | succ n ih =>
    rw [replayed]
    rcases replays_cases measure s with
      ⟨c, x, input, next, -, hr, hs⟩ | ⟨c, r, next, -, hr, hs⟩ | ⟨hr, stopped, -, -⟩
    · rw [hr, hs, (Cursor.next?_eq_some_iff.mp next).1]
      exact List.cons_prefix_cons.mpr ⟨rfl, ih _⟩
    · rw [hr, hs, (Cursor.next?_eq_some_iff.mp next).1]
      exact List.cons_prefix_cons.mpr ⟨rfl, ih _⟩
    · rw [hr, replayed_of_stopped stopped]
      exact List.nil_prefix

/-- While the replay runs, every call replays an action. -/
theorem length_replayed (n : ℕ) (running : (s.after measure n).progress = .running) :
    (s.replayed measure n).length = n := by
  induction n generalizing s with
  | zero => rfl
  | succ n ih =>
    rw [after] at running
    rw [replayed, List.length_append, ih _ running]
    rcases replays_cases measure s with
      ⟨c, x, input, -, -, hr, -⟩ | ⟨c, r, -, -, hr, -⟩ | ⟨hr, stopped, -, -⟩
    · rw [hr]
      exact Nat.add_comm 1 n
    · rw [hr]
      exact Nat.add_comm 1 n
    · rw [after_of_stopped measure stopped] at running
      exact absurd running stopped

theorem consumed_after (n : ℕ) :
    (s.after measure n).consumed = s.consumed + (s.replayed measure n).count .shift := by
  induction n generalizing s with
  | zero => rfl
  | succ n ih =>
    rw [after, ih, replayed]
    rcases replays_cases measure s with
      ⟨c, x, input, -, -, hr, hs⟩ | ⟨c, r, -, -, hr, hs⟩ | ⟨hr, -, -, hs, -⟩
    · rw [hr, hs, List.count_append, Option.toList_some, List.count_singleton_self, ← Nat.add_assoc]
      rfl
    · rw [hr, hs, List.count_append, Option.toList_some, List.count_singleton]
      simp only [beq_iff_eq, reduceCtorEq, if_false, Nat.zero_add]
      rfl
    · rw [hr, hs, Option.toList_none, List.nil_append]

omit [Scalar α] in
theorem listing_leaf (ts : List (ParseTree α)) (l : String) (g : GlyphBox α) :
    listing (ts ++ [.node l g []]) = listing ts ++ [(l, 0)] := by
  rw [listing, ParseTree.postorderForest_leaf, List.map_append]
  rfl

omit [Scalar α] in
theorem listing_adopt {k : ℕ} {ts : List (ParseTree α)} (h : k ≤ ts.length) (l : String)
    (g : GlyphBox α) :
    listing (ts.take (ts.length - k) ++ [.node l g (ts.drop (ts.length - k))]) =
      listing ts ++ [(l, k)] := by
  have hk : (ts.drop (ts.length - k)).length = k := by
    rw [List.length_drop]
    omega
  rw [listing, ParseTree.postorderForest_adopt, List.map_append, List.map_singleton]
  simp only [ParseTree.label, ParseTree.children, hk]
  rfl

/-- **A run adds to the listing what its actions spell**, from the input that was left. -/
theorem spelling_replayed (n : ℕ) :
    ∃ es, spelling s.input (s.replayed measure n) = some es ∧
      listing (s.after measure n).stack = listing s.stack ++ es := by
  induction n generalizing s with
  | zero => exact ⟨[], by simp [replayed, spelling], by simp [after]⟩
  | succ n ih =>
    rw [after, replayed]
    rcases replays_cases measure s with
      ⟨c, x, input, -, symbol, hr, hs⟩ | ⟨c, r, -, fits, hr, hs⟩ | ⟨hr, stopped, hs, -⟩
    · obtain ⟨es, he, hl⟩ := ih (s.shifted measure c x input)
      refine ⟨(String.singleton x, 0) :: es, ?_, ?_⟩
      · rw [hr, hs, symbol]
        exact Option.map_eq_some_iff.mpr ⟨es, he, rfl⟩
      · rw [hs, hl, shifted_stack, leaf, listing_leaf, List.append_assoc]
        rfl
    · obtain ⟨es, he, hl⟩ := ih (s.reduced measure c r)
      refine ⟨(r.symbol, r.size) :: es, ?_, ?_⟩
      · rw [hr, hs, Option.toList_some, List.singleton_append, spelling]
        exact Option.map_eq_some_iff.mpr ⟨es, he, rfl⟩
      · rw [hs, hl, reduced_stack, reduct, adopted, listing_adopt fits, List.append_assoc]
        rfl
    · -- The run has come to its end, and neither side grows any more.
      refine ⟨[], ?_, ?_⟩
      · rw [hr, replayed_of_stopped stopped]
        simp [spelling]
      · rw [after_of_stopped measure stopped, hs, List.append_nil]

end Stepper

open Stepper in
/-- **The replay of a trace is faithful.** After any number of calls, the actions replayed are a
front part of the trace, one for each call while the replay runs; the nodes of the stack in
postorder are what they spell; the leaves that were shifted are the consumed part of the input; and
the next call, if it replays a reduction, takes exactly the top trees of the stack in their order as
the children of the new one. -/
theorem listing_after [Scalar α] (trace : Trace) (style : TraceStyle α) (measure : TextMeasure α)
    (n : ℕ) :
    let s := (ofTrace trace style).after measure n
    let actions := (ofTrace trace style).replayed measure n
    actions <+: trace.actions ∧
      (s.progress = .running → actions.length = n) ∧
      spelling trace.input.toList actions = some (listing s.stack) ∧
      atShifts actions ((ParseTree.postorderForest s.stack).map (·.label)) =
        (trace.input.toList.take s.consumed).map String.singleton ∧
      ∀ r, s.replays measure = some (.reduce r) →
        r.size ≤ s.stack.length ∧ ∃ glyph,
          (s.step measure).stepper.stack = s.stack.take (s.stack.length - r.size) ++
            [.node r.symbol glyph (s.stack.drop (s.stack.length - r.size))] := by
  intro s actions
  obtain ⟨es, he, hl⟩ : ∃ es, spelling trace.input.toList actions = some es ∧
      listing s.stack = listing [] ++ es := spelling_replayed measure (ofTrace trace style) n
  have hl : listing s.stack = es := hl.trans (by simp [listing])
  have hs : s.consumed = actions.count .shift :=
    (consumed_after measure (ofTrace trace style) n).trans (Nat.zero_add _)
  refine ⟨replayed_isPrefix measure (ofTrace trace style) n,
    length_replayed measure (ofTrace trace style) n, ?_, ?_, ?_⟩
  · rw [hl]
    exact he
  · rw [hs, ← atShifts_spelling he, ← hl, listing, List.map_map]
    rfl
  · intro r hr
    rcases replays_cases measure s with
      ⟨c, x, input, -, -, hr', -⟩ | ⟨c, r', -, fits, hr', hs'⟩ | ⟨hr', -, -, -⟩
    · rw [hr'] at hr
      cases hr
    · rw [hr'] at hr
      cases hr
      exact ⟨fits, _, by rw [hs', reduced_stack, reduct, adopted]⟩
    · rw [hr'] at hr
      cases hr

end ParseReplay
