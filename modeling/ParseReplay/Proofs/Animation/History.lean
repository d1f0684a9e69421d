import ParseReplay.Animation.Scheduler

/-!
# The history of a scheduler

A scheduler is driven by batches that it is given and by ticks. It takes a batch when nothing is in
flight and refuses it otherwise; a tick lets the whole batch settle or leaves the whole batch in
flight. So whatever calls were made, and however many batches were refused, the scheduler has all
the commands of the batches that it took, in the order in which they came: those of the earlier
batches settled and complete, those of the last one in flight.

## Main definitions

* `Command.subject`, `Scheduler.contents`: what commands draw, and in which time
* `Scheduler.Passes`: what a tick can do
* `Scheduler.Call`, `Scheduler.run`, `Scheduler.accepted`: batches and ticks, runs of them, and the
  batches that a run takes
* `Scheduler.Orderly`: a scheduler after the given batches

## Main results

* `Scheduler.passes_tick`: every tick settles the batch or leaves it in flight
* `Scheduler.Holds.call`: a call adds the batch that it takes, and nothing else
* `Scheduler.orderly_run`: a scheduler is orderly after every run
-/

namespace ParseReplay

/-- What a command draws, and in which time. -/
def Command.subject {α : Type} (c : Command α) : Payload α × α := (c.payload, c.duration)

/-- What the commands draw, the settled ones first, and in which time. -/
def Scheduler.contents {α : Type} (s : Scheduler α) : List (Payload α × α) :=
  (s.settled ++ s.active).map Command.subject

variable {α : Type} [Scalar α]

theorem Command.subject_advance (delta : α) (c : Command α) :
    (c.advance delta).subject = c.subject := by
  by_cases h : c.isComplete = true
  · rw [advance, if_pos h]
  · rw [advance, if_neg h]
    rfl

theorem Command.subject_comp_advance (delta : α) :
    Command.subject ∘ Command.advance delta = Command.subject :=
  funext fun c => c.subject_advance delta

namespace Scheduler

/-! ## Ticks -/

/-- **What a tick can do** to a scheduler, and tell: the batch in flight settles, or it stays in
flight because one of its commands is not complete. -/
inductive Passes (delta : α) (s : Scheduler α) : Scheduler α → Bool → Prop
  | settle (complete : ∀ c ∈ s.active, (c.advance delta).isComplete = true) :
      Passes delta s
        { s with settled := s.settled ++ s.active.map (Command.advance delta), active := [] } true
  | stay {c : Command α} (flying : c ∈ s.active)
      (incomplete : (c.advance delta).isComplete = false) :
      Passes delta s { s with active := s.active.map (Command.advance delta) } false

/-- **Every tick** does one of the two. -/
theorem passes_tick (delta : α) (s : Scheduler α) :
    Passes delta s (s.tick delta).scheduler (s.tick delta).done := by
  cases h : (s.active.map (Command.advance delta)).all Command.isComplete with
  | true =>
    simp only [tick, h, if_true]
    apply Passes.settle
    intro c hc
    exact List.all_eq_true.mp h _ (List.mem_map_of_mem hc)
  | false =>
    obtain ⟨c', hc', hincomplete⟩ := List.all_eq_false.mp h
    obtain ⟨c, hc, rfl⟩ := List.mem_map.mp hc'
    simp only [tick, h, Bool.false_eq_true, if_false]
    exact Passes.stay hc (Bool.eq_false_iff.mpr hincomplete)

variable {s s' : Scheduler α} {delta : α} {done : Bool}

/-- **A tick keeps what is drawn**, whether its batch settles or not. -/
theorem Passes.contents_eq (passes : Passes delta s s' done) : s'.contents = s.contents := by
  cases passes with
  | settle complete =>
    simp only [contents, List.append_nil, List.map_append, List.map_map,
      Command.subject_comp_advance]
  | stay flying incomplete =>
    simp only [contents, List.map_append, List.map_map, Command.subject_comp_advance]

theorem Passes.settled_isPrefix (passes : Passes delta s s' done) : s.settled <+: s'.settled := by
  cases passes with
  | settle complete => exact List.prefix_append _ _
  | stay flying incomplete => exact List.prefix_rfl

/-- A tick tells whether anything is left in flight. -/
theorem Passes.done_eq (passes : Passes delta s s' done) : done = s'.isSettled := by
  cases passes with
  | settle complete => rfl
  | stay flying incomplete =>
    have hne : s.active.map (Command.advance delta) ≠ [] :=
      List.ne_nil_of_mem (List.mem_map_of_mem flying)
    exact (List.isEmpty_eq_false_iff.mpr hne).symm

theorem contents_tick (delta : α) (s : Scheduler α) :
    (s.tick delta).scheduler.contents = s.contents := (passes_tick delta s).contents_eq

theorem active_tick_of_done (h : (s.tick delta).done = true) :
    (s.tick delta).scheduler.active = [] := by
  rw [(passes_tick delta s).done_eq] at h
  exact List.isEmpty_iff.mp h

/-- A batch that is not done stays in flight. -/
theorem active_tick_of_not_done (h : ¬ (s.tick delta).done = true) :
    (s.tick delta).scheduler.active = s.active.map (Command.advance delta) := by
  have passes := passes_tick delta s
  generalize (s.tick delta).scheduler = s', (s.tick delta).done = done at passes h ⊢
  cases passes with
  | settle complete => exact absurd rfl h
  | stay flying incomplete => rfl

/-- A tick with nothing in flight draws the settled commands, and leaves them. -/
theorem tick_of_settled (h : s.active = []) (delta : α) :
    s.tick delta = ⟨s, true, s.settled.flatMap (Command.picture s.ink s.lineWidth)⟩ := by
  obtain ⟨active, settled, ink, lineWidth⟩ := s
  obtain rfl : active = [] := h
  simp [tick]

/-! ## Batches -/

omit [Scalar α] in
/-- A batch is taken when nothing is in flight, -/
theorem begin_of_settled (h : s.active = []) (batch : List (Command α)) :
    s.begin batch = .ok { s with active := batch } := by
  rw [Scheduler.begin, isSettled, h]
  rfl

omit [Scalar α] in
/-- and is refused when something is. The scheduler that is left is the same. -/
theorem begin_of_flying (h : s.active ≠ []) (batch : List (Command α)) :
    s.begin batch = .error ⟨.batchInFlight s.active.length, s⟩ := by
  rw [Scheduler.begin, isSettled, List.isEmpty_eq_false_iff.mpr h]
  rfl

omit [Scalar α] in
theorem begin_eq_error_iff {batch : List (Command α)} {failure : Failure (Scheduler α) α} :
    s.begin batch = .error failure ↔
      s.active ≠ [] ∧ failure.fault = .batchInFlight s.active.length ∧ failure.left = s := by
  obtain ⟨fault, left⟩ := failure
  by_cases h : s.active = []
  · rw [begin_of_settled h]
    simp [h]
  · rw [begin_of_flying h]
    simp [h, eq_comm]

/-! ## Runs -/

/-- A call of a scheduler: a batch to begin, or a tick. -/
inductive Call (α : Type) where
  | begin (batch : List (Command α))
  | tick (delta : α)

/-- The scheduler after a call. A batch leaves one also when it is refused. -/
def call (s : Scheduler α) : Call α → Scheduler α
  | .begin batch =>
    match s.begin batch with
    | .ok begun => begun
    | .error failure => failure.left
  | .tick delta => (s.tick delta).scheduler

/-- The batch that a call puts in flight, if it does. -/
def taken (s : Scheduler α) : Call α → List (List (Command α))
  | .begin batch =>
    match s.begin batch with
    | .ok _ => [batch]
    | .error _ => []
  | .tick _ => []

/-- The scheduler after several calls. -/
def run (s : Scheduler α) (calls : List (Call α)) : Scheduler α := calls.foldl call s

/-- The batches that were put in flight in several calls, in order. -/
def accepted : Scheduler α → List (Call α) → List (List (Command α))
  | _, [] => []
  | s, c :: calls => s.taken c ++ (s.call c).accepted calls

/-- The scheduler has the commands of the batches and no others, and the settled ones are
complete. -/
structure Holds (batches : List (List (Command α))) (s : Scheduler α) : Prop where
  contents_eq : s.contents = batches.flatten.map Command.subject
  complete : ∀ c ∈ s.settled, c.isComplete = true

variable {batches : List (List (Command α))}

theorem holds_empty (ink : String) (lineWidth : α) : Holds [] (empty ink lineWidth) := by
  constructor
  · rfl
  · simp [empty]

theorem Holds.begin (h : Holds batches s) (settled : s.active = []) (batch : List (Command α)) :
    Holds (batches ++ [batch]) { s with active := batch } := by
  constructor
  · -- Nothing is in flight, so that the batch stands behind all that has settled.
    have hsettled : s.settled.map Command.subject = batches.flatten.map Command.subject := by
      rw [← h.contents_eq, contents, settled, List.append_nil]
    rw [contents, List.map_append, hsettled, List.flatten_concat, List.map_append]
  · exact h.complete

theorem Holds.tick (h : Holds batches s) (passes : Passes delta s s' done) : Holds batches s' := by
  constructor
  · rw [passes.contents_eq, h.contents_eq]
  · cases passes with
    | settle complete =>
      intro c hc
      rcases List.mem_append.mp hc with hold | hnew
      · exact h.complete c hold
      · obtain ⟨c', hc', rfl⟩ := List.mem_map.mp hnew
        exact complete c' hc'
    | stay flying incomplete => exact h.complete

/-- **A call adds the batch that it takes**, and nothing else. -/
theorem Holds.call (h : Holds batches s) (c : Call α) :
    Holds (batches ++ s.taken c) (s.call c) := by
  cases c with
  | begin batch =>
    by_cases hs : s.active = []
    · simp only [Scheduler.call, taken, begin_of_settled hs]
      exact h.begin hs batch
    · simp only [Scheduler.call, taken, begin_of_flying hs, List.append_nil]
      exact h
  | tick delta =>
    rw [taken, List.append_nil]
    exact h.tick (passes_tick delta s)

theorem Holds.run (h : Holds batches s) (calls : List (Call α)) :
    Holds (batches ++ s.accepted calls) (s.run calls) := by
  induction calls generalizing batches s with
  | nil =>
    rw [accepted, List.append_nil]
    exact h
  | cons c calls ih =>
    -- The later calls find the batches that the first one has left.
    rw [accepted, ← List.append_assoc]
    exact ih (h.call c)

theorem settled_call_isPrefix (s : Scheduler α) (c : Call α) :
    s.settled <+: (s.call c).settled := by
  cases c with
  | begin batch =>
    by_cases hs : s.active = []
    · simp only [call, begin_of_settled hs]
      exact List.prefix_rfl
    · simp only [call, begin_of_flying hs]
      exact List.prefix_rfl
  | tick delta => exact (passes_tick delta s).settled_isPrefix

/-- **The settled commands only grow at their end.** -/
theorem settled_isPrefix (s : Scheduler α) (calls : List (Call α)) :
    s.settled <+: (s.run calls).settled := by
  induction calls generalizing s with
  | nil => exact List.prefix_rfl
  | cons c calls ih => exact (s.settled_call_isPrefix c).trans (ih (s.call c))

/-- **A scheduler in order**: it has taken the given batches, and takes or refuses, keeps and tells
as it should from here on. -/
structure Orderly (batches : List (List (Command α))) (s : Scheduler α) : Prop
    extends Holds batches s where
  /-- A batch is refused when something is in flight, and only then. The failure tells how much is
  in flight, and leaves the scheduler unchanged. -/
  refused : ∀ batch failure, s.begin batch = .error failure ↔
    s.active ≠ [] ∧ failure.fault = .batchInFlight s.active.length ∧ failure.left = s
  /-- A batch that is refused changes nothing; one that is taken is in flight. -/
  kept : ∀ batch, s.active ≠ [] → s.call (.begin batch) = s ∧ s.taken (.begin batch) = []
  begun : ∀ batch, s.active = [] →
    s.call (.begin batch) = { s with active := batch } ∧ s.taken (.begin batch) = [batch]
  /-- What has settled stays where it is. -/
  settled_isPrefix : ∀ calls, s.settled <+: (s.run calls).settled
  /-- A tick tells whether anything is left in flight, -/
  told : ∀ delta, (s.tick delta).done = (s.tick delta).scheduler.isSettled
  /-- and leaves a command that is not complete if it tells so. -/
  incomplete : ∀ delta, (s.tick delta).done = false →
    ∃ c ∈ (s.tick delta).scheduler.active, c.isComplete = false

/-- **The history of a scheduler.** After any batches and ticks, a scheduler that began without
commands is in order, with the batches that it took. -/
theorem orderly_run (ink : String) (lineWidth : α) (calls : List (Call α)) :
    Orderly ((empty ink lineWidth).accepted calls) ((empty ink lineWidth).run calls) := by
  have hholds := (holds_empty ink lineWidth).run calls
  rw [List.nil_append] at hholds
  generalize (empty ink lineWidth).run calls = s at hholds ⊢
  refine ⟨hholds, fun _ _ => begin_eq_error_iff, ?_, ?_, s.settled_isPrefix, ?_, ?_⟩
  · intro batch hs
    simp only [call, taken, begin_of_flying hs, and_self]
  · intro batch hs
    simp only [call, taken, begin_of_settled hs, and_self]
  · intro delta
    exact (passes_tick delta s).done_eq
  · intro delta
    have passes := passes_tick delta s
    generalize (s.tick delta).scheduler = s', (s.tick delta).done = done at passes ⊢
    intro hdone
    cases passes with
    | settle complete => cases hdone
    | @stay c flying incomplete => exact ⟨_, List.mem_map_of_mem flying, incomplete⟩

end Scheduler

end ParseReplay
