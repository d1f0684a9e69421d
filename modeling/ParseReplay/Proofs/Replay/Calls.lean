import Mathlib.Data.List.Basic
import ParseReplay.Replay.Stepper

/-!
# Calls of the stepper

A call of `step` has one of five effects: it leaves a stopped replay as it is, it shifts or reduces,
it finishes the replay, or it refuses the next action and halts. In postorder, the trees of the
stack and all trees inside them only ever grow at the end, by the tree that a shift or a reduction
makes; an invariant of a replay is therefore a statement about a growing list.

## Main definitions

* `ParseTree.postorder`, `ParseTree.postorderForest`: a tree and all trees inside it, children
  before their parent
* `Cursor.Ends`, `Stepper.Refused`, `Stepper.Effect`: what a call can do
* `Stepper.after measure n`: the stepper after `n` calls

## Main results

* `postorderForest_adopt`: a reduction adds its tree at the end of the postorder
* `effect_step`: every call has one of the effects
* `after_induction`: what holds at the beginning and survives every effect holds after every number
  of calls
-/

namespace ParseReplay

namespace ParseTree

variable {α : Type}

mutual

/-- A tree and all trees inside it, children before their parent. -/
def postorder : ParseTree α → List (ParseTree α)
  | node l g cs => postorderForest cs ++ [node l g cs]

/-- The trees of a forest and all trees inside them, from left to right, children before their
parent. -/
def postorderForest : List (ParseTree α) → List (ParseTree α)
  | [] => []
  | t :: ts => t.postorder ++ postorderForest ts

end

@[simp] theorem postorderForest_nil : postorderForest ([] : List (ParseTree α)) = [] := by
  simp only [postorderForest]

theorem postorderForest_append (ts us : List (ParseTree α)) :
    postorderForest (ts ++ us) = postorderForest ts ++ postorderForest us := by
  induction ts with
  | nil => rw [postorderForest_nil, List.nil_append, List.nil_append]
  | cons t ts ih =>
    rw [List.cons_append, postorderForest, postorderForest, ih, List.append_assoc]

theorem postorderForest_singleton (l : String) (g : GlyphBox α) (cs : List (ParseTree α)) :
    postorderForest [node l g cs] = postorderForest cs ++ [node l g cs] := by
  rw [postorderForest, postorder, postorderForest_nil, List.append_nil]

/-- **Adoption**: the upper trees of a stack under a new root. The trees in front of the root in
postorder are those that were there before, although they have moved one level down. -/
theorem postorderForest_adopt (k : ℕ) (ts : List (ParseTree α)) (l : String) (g : GlyphBox α) :
    postorderForest (ts.take k ++ [node l g (ts.drop k)]) =
      postorderForest ts ++ [node l g (ts.drop k)] := by
  -- The trees that stay and those that are taken in join to the stack that was there before.
  rw [postorderForest_append, postorderForest_singleton, ← List.append_assoc,
    ← postorderForest_append, List.take_append_drop]

/-- A new leaf on top of a stack. -/
theorem postorderForest_leaf (ts : List (ParseTree α)) (l : String) (g : GlyphBox α) :
    postorderForest (ts ++ [node l g []]) = postorderForest ts ++ [node l g []] := by
  rw [postorderForest_append, postorderForest_singleton, postorderForest_nil, List.nil_append]

end ParseTree

/-! ## The effect of a call -/

theorem Cursor.next?_eq_some_iff {c c' : Cursor} {a : Action} :
    c.next? = some (a, c') ↔ c.rest = a :: c'.rest ∧ c'.position = c.position + 1 := by
  rcases c with ⟨position, _ | ⟨b, rest⟩⟩
  · simp [Cursor.next?]
  · rcases c' with ⟨position', rest'⟩
    simp only [Cursor.next?, Option.some.injEq, Prod.mk.injEq, Cursor.mk.injEq, List.cons.injEq]
    constructor
    · rintro ⟨rfl, rfl, rfl⟩
      exact ⟨⟨rfl, rfl⟩, rfl⟩
    · rintro ⟨⟨rfl, rfl⟩, rfl⟩
      exact ⟨rfl, rfl, rfl⟩

theorem Cursor.next?_eq_none_iff {c : Cursor} : c.next? = none ↔ c.rest = [] := by
  rcases c with ⟨position, _ | ⟨b, rest⟩⟩ <;> simp [Cursor.next?]

/-- The trace ends here: for want of actions, or by an action that says so, which is then pulled. -/
inductive Cursor.Ends (c : Cursor) : Cursor → Prop
  | spent (next : c.next? = none) : c.Ends c
  | finish {result : Option Int} {c' : Cursor} (next : c.next? = some (.finish result, c')) :
      c.Ends c'

/-- The end of a trace pulls one action at most. -/
theorem Cursor.Ends.pulls {c c' : Cursor} (ends : c.Ends c') :
    c' = c ∨ ∃ action, c.next? = some (action, c') := by
  cases ends with
  | spent next => exact Or.inl rfl
  | finish next => exact Or.inr ⟨_, next⟩

namespace Stepper

variable {α : Type} [Scalar α]

/-- The next action cannot be replayed, for this fault. The cursor is the one behind it. -/
inductive Refused (s : Stepper α) : Cursor → Fault α → Prop
  | exhausted {c : Cursor} (next : s.cursor.next? = some (.shift, c)) (input : s.input = []) :
      Refused s c (.exhaustedInput s.consumed)
  | underflow {r : Reduction} {c : Cursor} (next : s.cursor.next? = some (.reduce r, c))
      (short : s.stack.length < r.size) :
      Refused s c (.stackUnderflow r.size s.stack.length)
  | unbalanced {c : Cursor} (ends : s.cursor.Ends c) (depth : s.stack.length ≠ 1) :
      Refused s c (.unbalancedStack s.stack.length)

/-- The leaf that a shift of the symbol `x` makes. -/
def leaf (measure : TextMeasure α) (s : Stepper α) (x : Char) : ParseTree α :=
  .node (String.singleton x) (s.glyphOf (measure (String.singleton x) s.font).width) []

/-- The stepper with that leaf on its stack. -/
def shifted (measure : TextMeasure α) (s : Stepper α) (cursor : Cursor) (x : Char)
    (input : List Char) : Stepper α :=
  { s with cursor, input, consumed := s.consumed + 1 }.push (String.singleton x)
    (measure (String.singleton x) s.font).width []

/-- The trees that a reduction takes from the stack. -/
def adopted (s : Stepper α) (r : Reduction) : List (ParseTree α) :=
  s.stack.drop (s.stack.length - r.size)

/-- The place of the label of a reduction. -/
def reductPlace (measure : TextMeasure α) (s : Stepper α) (r : Reduction) : Vec α :=
  s.placeBelow (measure r.symbol s.font).width (s.adopted r)

/-- The tree that a reduction makes. -/
def reduct (measure : TextMeasure α) (s : Stepper α) (r : Reduction) : ParseTree α :=
  .node r.symbol
    ({ s with place := s.reductPlace measure r }.glyphOf (measure r.symbol s.font).width)
    (s.adopted r)

/-- The stepper with that tree in place of those that it takes. -/
def reduced (measure : TextMeasure α) (s : Stepper α) (cursor : Cursor) (r : Reduction) :
    Stepper α :=
  { s with
    cursor
    stack := s.stack.take (s.stack.length - r.size)
    place := s.reductPlace measure r }.push r.symbol (measure r.symbol s.font).width (s.adopted r)

@[simp] theorem shifted_stack (measure : TextMeasure α) (s : Stepper α) (c : Cursor) (x : Char)
    (input : List Char) :
    (s.shifted measure c x input).stack = s.stack ++ [s.leaf measure x] := rfl

@[simp] theorem reduced_stack (measure : TextMeasure α) (s : Stepper α) (c : Cursor)
    (r : Reduction) :
    (s.reduced measure c r).stack =
      s.stack.take (s.stack.length - r.size) ++ [s.reduct measure r] := rfl

/-- A shift adds its leaf at the end of the postorder. -/
theorem postorderForest_shifted (measure : TextMeasure α) (s : Stepper α) (c : Cursor) (x : Char)
    (input : List Char) :
    ParseTree.postorderForest (s.shifted measure c x input).stack =
      ParseTree.postorderForest s.stack ++ [s.leaf measure x] := by
  rw [shifted_stack, leaf, ParseTree.postorderForest_leaf]

/-- A reduction adds its node at the end of the postorder. -/
theorem postorderForest_reduced (measure : TextMeasure α) (s : Stepper α) (c : Cursor)
    (r : Reduction) :
    ParseTree.postorderForest (s.reduced measure c r).stack =
      ParseTree.postorderForest s.stack ++ [s.reduct measure r] := by
  rw [reduced_stack, reduct, adopted, ParseTree.postorderForest_adopt]

/-- **The effects of a call**: the stepper it leaves, and its result. -/
inductive Effect (measure : TextMeasure α) (s : Stepper α) :
    Stepper α → Except (Fault α) (List (Command α)) → Prop
  | rest (stopped : s.progress ≠ .running) : Effect measure s s (.ok [])
  | shift {c : Cursor} {x : Char} {input : List Char} (running : s.progress = .running)
      (next : s.cursor.next? = some (.shift, c)) (symbol : s.input = x :: input) :
      Effect measure s (s.shifted measure c x input) (.ok (s.batch (s.leaf measure x)))
  | reduce {r : Reduction} {c : Cursor} (running : s.progress = .running)
      (next : s.cursor.next? = some (.reduce r, c)) (fits : r.size ≤ s.stack.length) :
      Effect measure s (s.reduced measure c r) (.ok (s.batch (s.reduct measure r)))
  | finish {c : Cursor} (running : s.progress = .running) (ends : s.cursor.Ends c)
      (depth : s.stack.length = 1) :
      Effect measure s { s with cursor := c, progress := .finished } (.ok [])
  | halt {c : Cursor} {fault : Fault α} (running : s.progress = .running)
      (refused : s.Refused c fault) :
      Effect measure s { s with cursor := c, progress := .halted } (.error fault)

theorem step_of_stopped (measure : TextMeasure α) {s : Stepper α} (h : s.progress ≠ .running) :
    s.step measure = ⟨s, .ok [], [], []⟩ := by
  rw [step, if_neg h]

/-- The end of a trace finishes the replay or is refused, by the depth of the stack. -/
theorem effect_close (measure : TextMeasure α) {s : Stepper α} {c : Cursor}
    (running : s.progress = .running) (ends : s.cursor.Ends c)
    (closes : ∃ report, s.applyNext measure = { s with cursor := c }.close report) :
    Effect measure s (s.step measure).stepper (s.step measure).result := by
  obtain ⟨report, closes⟩ := closes
  rw [step, if_pos running, closes]
  by_cases depth : s.stack.length = 1
  · simp only [close, finish, depth, if_true, Except.map]
    exact .finish running ends depth
  · simp only [close, finish, depth, if_false, Except.map]
    exact .halt running (.unbalanced ends depth)

theorem effect_shift (measure : TextMeasure α) {s : Stepper α} {c : Cursor}
    (running : s.progress = .running) (next : s.cursor.next? = some (.shift, c)) :
    Effect measure s (s.step measure).stepper (s.step measure).result := by
  rw [step, if_pos running, applyNext, next]
  cases input : s.input with
  | nil =>
    simp only [shift, announce]
    simpa only [input] using Effect.halt running (Refused.exhausted next input)
  | cons x rest =>
    simp only [shift, announce, push, List.getLast?_concat]
    exact .shift running next input

theorem effect_reduce (measure : TextMeasure α) {s : Stepper α} {c : Cursor} {r : Reduction}
    (running : s.progress = .running) (next : s.cursor.next? = some (.reduce r, c)) :
    Effect measure s (s.step measure).stepper (s.step measure).result := by
  rw [step, if_pos running, applyNext, next]
  by_cases short : s.stack.length < r.size
  · simp only [reduce, short, if_true, announce]
    exact .halt running (.underflow next short)
  · simp only [reduce, short, if_false, announce, push, List.getLast?_concat]
    exact .reduce running next (Nat.le_of_not_lt short)

/-- **Every call has one of the effects.** -/
theorem effect_step (measure : TextMeasure α) (s : Stepper α) :
    Effect measure s (s.step measure).stepper (s.step measure).result := by
  by_cases running : s.progress = .running
  swap
  · rw [step_of_stopped measure running]
    exact .rest running
  -- The end of the list closes the replay as the action does that says so.
  cases next : s.cursor.next? with
  | none => exact effect_close measure running (.spent next) ⟨_, by rw [applyNext, next]⟩
  | some pulled =>
    obtain ⟨action, c⟩ := pulled
    cases action with
    | shift => exact effect_shift measure running next
    | reduce r => exact effect_reduce measure running next
    | finish result =>
      exact effect_close measure running (.finish next) ⟨_, by rw [applyNext, next]⟩

/-! ## What an effect leaves -/

section Effect

variable {measure : TextMeasure α} {s s' : Stepper α}

/-- A call moves a replay that runs: it pulls an action, or it stops the replay. -/
theorem Effect.ne_of_running {result : Except (Fault α) (List (Command α))}
    (effect : Effect measure s s' result) (running : s.progress = .running) : s' ≠ s := by
  intro h
  cases effect with
  | rest stopped => exact stopped running
  | @shift c x input _ next symbol =>
    have hposition : c.position = s.cursor.position := congrArg (·.cursor.position) h
    have hpulled := (Cursor.next?_eq_some_iff.mp next).2
    omega
  | @reduce r c _ next fits =>
    have hposition : c.position = s.cursor.position := congrArg (·.cursor.position) h
    have hpulled := (Cursor.next?_eq_some_iff.mp next).2
    omega
  | finish _ ends depth =>
    have hprogress : Progress.finished = s.progress := congrArg (·.progress) h
    simp [running] at hprogress
  | halt _ refused =>
    have hprogress : Progress.halted = s.progress := congrArg (·.progress) h
    simp [running] at hprogress

/-- **A call pulls one action at most.** -/
theorem Effect.pulls {result : Except (Fault α) (List (Command α))}
    (effect : Effect measure s s' result) :
    s'.cursor = s.cursor ∨ ∃ action, s.cursor.next? = some (action, s'.cursor) := by
  cases effect with
  | rest stopped => exact Or.inl rfl
  | shift running next symbol => exact Or.inr ⟨_, next⟩
  | reduce running next fits => exact Or.inr ⟨_, next⟩
  | finish running ends depth => exact ends.pulls
  | halt running refused =>
    cases refused with
    | exhausted next input => exact Or.inr ⟨_, next⟩
    | underflow next short => exact Or.inr ⟨_, next⟩
    | unbalanced ends depth => exact ends.pulls

theorem Effect.position_le {result : Except (Fault α) (List (Command α))}
    (effect : Effect measure s s' result) :
    s.cursor.position ≤ s'.cursor.position ∧ s'.cursor.position ≤ s.cursor.position + 1 := by
  rcases effect.pulls with h | ⟨action, next⟩
  · rw [h]
    omega
  · have hpulled := (Cursor.next?_eq_some_iff.mp next).2
    omega

/-- A fault halts the replay. It is none of the scheduler's. -/
theorem Effect.of_error {fault : Fault α} (effect : Effect measure s s' (.error fault)) :
    s'.progress = .halted ∧ ∀ k, fault ≠ .batchInFlight k := by
  cases effect with
  | halt running refused => cases refused <;> simp

/-- The commands of a batch begin as labels and lines do. -/
theorem Effect.mem_batch {batch : List (Command α)} (effect : Effect measure s s' (.ok batch))
    {c : Command α} (hc : c ∈ batch) :
    ∃ payload, c = .fresh payload s.style.textDuration ∨
      c = .fresh payload s.style.lineDuration := by
  have hbatch : ∀ t : ParseTree α, c ∈ s.batch t →
      ∃ payload, c = .fresh payload s.style.textDuration ∨
        c = .fresh payload s.style.lineDuration := by
    intro t hc
    rcases List.mem_cons.mp hc with rfl | hc
    · exact ⟨_, Or.inl rfl⟩
    · obtain ⟨child, -, rfl⟩ := List.mem_map.mp hc
      exact ⟨_, Or.inr rfl⟩
  cases effect with
  | rest stopped => simp at hc
  | shift running next symbol => exact hbatch _ hc
  | reduce running next fits => exact hbatch _ hc
  | finish running ends depth => simp at hc

/-- The commands of a batch have had no time yet. -/
theorem Effect.fresh {batch : List (Command α)} (effect : Effect measure s s' (.ok batch)) :
    ∀ c ∈ batch, ∃ payload duration, c = .fresh payload duration := by
  intro c hc
  obtain ⟨payload, rfl | rfl⟩ := effect.mem_batch hc <;> exact ⟨_, _, rfl⟩

/-- A batch is empty only where the replay does not run on. -/
theorem Effect.batch_ne_nil {batch : List (Command α)} (effect : Effect measure s s' (.ok batch))
    (running : s'.progress = .running) : batch ≠ [] := by
  cases effect with
  | rest stopped => exact absurd running stopped
  | shift _ next symbol => exact List.cons_ne_nil _ _
  | reduce _ next fits => exact List.cons_ne_nil _ _
  | finish _ ends depth => simp at running

/-- A step without a fault leaves one action less to come, or finishes the replay. -/
theorem Effect.proceeds {batch : List (Command α)} (effect : Effect measure s s' (.ok batch))
    (running : s.progress = .running) :
    (s'.progress = .running ∧ s.cursor.rest.length = s'.cursor.rest.length + 1) ∨
      s'.progress = .finished ∧ batch = [] := by
  cases effect with
  | rest stopped => exact absurd running stopped
  | shift _ next symbol =>
    refine Or.inl ⟨running, ?_⟩
    rw [(Cursor.next?_eq_some_iff.mp next).1]
    rfl
  | reduce _ next fits =>
    refine Or.inl ⟨running, ?_⟩
    rw [(Cursor.next?_eq_some_iff.mp next).1]
    rfl
  | finish _ ends depth => exact Or.inr ⟨rfl, rfl⟩

/-- The look of the trees never changes. -/
theorem Effect.style {result : Except (Fault α) (List (Command α))}
    (effect : Effect measure s s' result) : s'.style = s.style ∧ s'.font = s.font := by
  cases effect <;> exact ⟨rfl, rfl⟩

end Effect

/-! ## Runs -/

/-- The stepper after `n` calls. -/
def after (measure : TextMeasure α) : Stepper α → ℕ → Stepper α
  | s, 0 => s
  | s, n + 1 => (s.step measure).stepper.after measure n

theorem after_succ (measure : TextMeasure α) (s : Stepper α) (n : ℕ) :
    s.after measure (n + 1) = ((s.after measure n).step measure).stepper := by
  -- A run makes its first call first, so that its beginning varies in the induction.
  induction n generalizing s with
  | zero => rfl
  | succ n ih => rw [after, ih, after]

/-- What every effect preserves, a run preserves. -/
theorem after_induction {P : Stepper α → Prop} {measure : TextMeasure α}
    (preserve : ∀ {s s' result}, Effect measure s s' result → P s → P s') {s : Stepper α}
    (h : P s) (n : ℕ) : P (s.after measure n) := by
  induction n with
  | zero => exact h
  | succ n ih =>
    rw [after_succ]
    exact preserve (effect_step measure _) ih

/-- A replay that has stopped is left as it is by every further call. -/
theorem after_of_stopped (measure : TextMeasure α) {s : Stepper α} (h : s.progress ≠ .running)
    (n : ℕ) : s.after measure n = s := by
  induction n with
  | zero => rfl
  | succ n ih => rw [after_succ, ih, step_of_stopped measure h]

end Stepper

end ParseReplay
