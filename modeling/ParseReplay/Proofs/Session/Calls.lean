import ParseReplay.Proofs.Animation.History
import ParseReplay.Proofs.Replay.Calls
import ParseReplay.Session

/-!
# Calls of a session

A session is driven by ticks and by frames. Either lets the scheduler tick; once nothing is in
flight, and while the replay runs without a fault, it then replays one action. So a call has one of
three effects on the session: it passes without an action, the action fails and its fault is kept,
or the action's batch is put in flight. A batch is never dropped, since it is only asked for when
nothing is in flight.

## Main definitions

* `Session.Call`, `Session.call`, `Session.run`: ticks and frames, and runs of them
* `Session.Ready`, `Session.Leaves`: a tick that replays an action, and the frames that a tick can
  leave
* `Session.Effect`: what a call can do to the session

## Main results

* `Session.exists_start`: a session starts for every adjacency list without an invalid target
* `Session.leaves_call`, `Session.effect_call`: every call leaves such a frame, and has one of the
  effects
* `Session.run_induction`: what holds at the beginning and survives every effect holds after every
  run
-/

namespace ParseReplay

variable {α : Type} [Scalar α]

/-- An adjacency list whose targets are states has a graph. -/
theorem Graph.exists_ofAdjacency {rows : Adjacency}
    (h : ∀ e ∈ rows.transitions, e.2 < rows.length) :
    ∃ g : Graph α, ofAdjacency rows = .ok g := by
  have hf : rows.transitions.find? (fun e => decide (rows.length ≤ e.2)) = none := by
    rw [List.find?_eq_none]
    intro e he
    simpa using h e he
  simp only [ofAdjacency, hf]
  exact ⟨_, rfl⟩

namespace Session

/-! ## The beginning -/

/-- The stepper, the scheduler and the fault of a session at its beginning. -/
theorem start_eq {source : Source} {settings : Settings α} {viewport : Vec α} {seed : UInt64}
    {s : Session α} {log : Log} (h : start source settings viewport seed = .ok (s, log)) :
    s.stepper = .ofTrace source.trace settings.trace ∧
      s.scheduler = .empty settings.trace.ink settings.trace.lineWidth ∧ s.fault = none ∧
      s.lastFrame = none ∧ s.settings = settings ∧ s.viewport = viewport := by
  unfold start at h
  cases hl : layOut source.adjacency settings viewport seed with
  | error fault =>
    rw [hl] at h
    cases h
  | ok laidOut =>
    rw [hl] at h
    cases h
    exact ⟨rfl, rfl, rfl, rfl, rfl, rfl⟩

/-- A session starts for every adjacency list whose targets are states. -/
theorem exists_start (source : Source)
    (h : ∀ e ∈ source.adjacency.transitions, e.2 < source.adjacency.length)
    (settings : Settings α) (viewport : Vec α) (seed : UInt64) :
    ∃ s log, start source settings viewport seed = .ok (s, log) := by
  obtain ⟨g, hg⟩ := Graph.exists_ofAdjacency (α := α) h
  unfold start layOut
  rw [hg]
  exact ⟨_, _, rfl⟩

/-! ## The effect of a call -/

/-- A tick by the time since the last frame, or a frame at a time of the clock. -/
inductive Call (α : Type) where
  | tick (delta : α)
  | frame (timestamp : α)

/-- The time that a call lets pass. -/
def Call.time (s : Session α) : Call α → α
  | tick delta => delta
  | frame timestamp =>
    match s.lastFrame with
    | none => 0.0
    | some last => Scalar.max (timestamp - last) 0.0

/-- The time of the last frame after a call. -/
def Call.last (s : Session α) : Call α → Option α
  | tick _ => s.lastFrame
  | frame timestamp => some timestamp

/-- A call, with the frame that it leaves. -/
def call (measure : TextMeasure α) (s : Session α) : Call α → Frame α
  | .tick delta => s.tick measure delta
  | .frame timestamp => s.frame measure timestamp

/-- The session after several calls. -/
def run (measure : TextMeasure α) : Session α → List (Call α) → Session α
  | s, [] => s
  | s, c :: calls => (s.call measure c).session.run measure calls

/-- A tick that replays the next action: nothing is left in flight, and the replay runs without a
fault. -/
structure Ready (s : Session α) (delta : α) : Prop where
  done : (s.scheduler.tick delta).done = true
  sound : s.fault = none
  running : s.stepper.progress = .running

/-- What a tick draws of the tree: the background, and the commands on it. -/
def treePicture (s : Session α) (delta : α) : List (DrawOp α) :=
  [.fillStyle s.settings.trace.background, .fillRect Vec.zero s.viewport] ++
    (s.scheduler.tick delta).picture

/-- What a tick draws of the automaton. -/
def statesPicture (s : Session α) : List (DrawOp α) :=
  s.graph.picture s.settings.edges s.settings.layout.idealLength s.viewport

/-- The report of a replay that was halted. -/
def haltRecord (fault : Fault α) : LogRecord :=
  .error ("trace replay halted: " ++ fault.message)

/-- The report of a batch that has begun. -/
def batchReport (s : Stepper α) (batch : List (Command α)) : Log :=
  if batch.isEmpty then [] else [.debug ("stack depth " ++ toString s.stack.length)]

/-- **The frames that a tick by `delta` can leave**, with `last` as the time of the last frame. -/
inductive Leaves (measure : TextMeasure α) (s : Session α) (delta : α) (last : Option α) :
    Frame α → Prop
  | pass (still : ¬ s.Ready delta) :
      Leaves measure s delta last
        { session := { s with scheduler := (s.scheduler.tick delta).scheduler, lastFrame := last }
          tree := s.treePicture delta
          states := s.statesPicture
          log := [] }
  | halt {fault : Fault α} (ready : s.Ready delta)
      (result : (s.stepper.step measure).result = .error fault) :
      Leaves measure s delta last
        { session :=
            { s with
              scheduler := (s.scheduler.tick delta).scheduler
              stepper := (s.stepper.step measure).stepper
              lastFrame := last
              fault := some fault }
          tree := s.treePicture delta ++ (s.stepper.step measure).ops
          states := s.statesPicture
          log := (s.stepper.step measure).log ++ [haltRecord fault] }
  | advance {batch : List (Command α)} (ready : s.Ready delta)
      (result : (s.stepper.step measure).result = .ok batch) :
      Leaves measure s delta last
        { session :=
            { s with
              scheduler := { (s.scheduler.tick delta).scheduler with active := batch }
              stepper := (s.stepper.step measure).stepper
              lastFrame := last }
          tree := s.treePicture delta ++ (s.stepper.step measure).ops
          states := s.statesPicture
          log := (s.stepper.step measure).log ++ finishReport (s.stepper.step measure).stepper ++
            batchReport (s.stepper.step measure).stepper batch }

/-- A batch starts when nothing is in flight, also if it is empty. -/
theorem animate_of_settled {s : Session α} (h : s.scheduler.active = [])
    (batch : List (Command α)) :
    s.animate batch =
      ({ s with scheduler := { s.scheduler with active := batch } },
        batchReport s.stepper batch) := by
  cases batch with
  | nil =>
    -- An empty batch is not begun, which leaves the scheduler as if it had been.
    have hs : { s.scheduler with active := [] } = s.scheduler := by rw [← h]
    rw [hs]
    rfl
  | cons c batch => simp [animate, batchReport, Scheduler.begin, Scheduler.isSettled, h]

/-- A tick after the time of the last frame has been noted as `last`; it does not read that time. -/
theorem leaves_tick (measure : TextMeasure α) (delta : α) (last : Option α) (s : Session α) :
    Leaves measure s delta last ({ s with lastFrame := last }.tick measure delta) := by
  by_cases hgate : ((s.scheduler.tick delta).done && s.fault.isNone) = true
  swap
  · rw [tick, if_neg hgate]
    exact .pass fun ready => hgate (by simp [ready.done, ready.sound])
  rw [tick, if_pos hgate]
  obtain ⟨done, sound⟩ := (Bool.and_eq_true _ _).mp hgate
  by_cases running : s.stepper.progress = .running
  swap
  · simp only [advance, if_neg running, List.append_nil]
    exact .pass fun ready => running ready.running
  have ready : s.Ready delta := ⟨done, Option.isNone_iff_eq_none.mp sound, running⟩
  simp only [advance, if_pos running]
  cases hr : (s.stepper.step measure).result with
  | error fault => exact .halt ready hr
  | ok batch =>
    dsimp only
    rw [animate_of_settled (Scheduler.active_tick_of_done done)]
    exact .advance ready hr

/-- **The frame of every call.** -/
theorem leaves_call (measure : TextMeasure α) (s : Session α) (c : Call α) :
    Leaves measure s (c.time s) (c.last s) (s.call measure c) := by
  cases c with
  | tick delta => exact leaves_tick measure delta s.lastFrame s
  | frame timestamp => exact leaves_tick measure _ (some timestamp) s

/-- **The effects of a call** in which the scheduler ticks as `t`, and which leaves `last` as the
time of the last frame. -/
inductive Effect (measure : TextMeasure α) (s : Session α) (t : Scheduler.Tick α)
    (last : Option α) : Session α → Prop
  | pass (still : t.done = true → s.fault.isSome = true ∨ s.stepper.progress ≠ .running) :
      Effect measure s t last { s with scheduler := t.scheduler, lastFrame := last }
  | halt {fault : Fault α} (done : t.done = true) (sound : s.fault = none)
      (running : s.stepper.progress = .running)
      (result : (s.stepper.step measure).result = .error fault) :
      Effect measure s t last
        { s with
          scheduler := t.scheduler
          stepper := (s.stepper.step measure).stepper
          lastFrame := last
          fault := some fault }
  | advance {batch : List (Command α)} (done : t.done = true) (sound : s.fault = none)
      (running : s.stepper.progress = .running)
      (result : (s.stepper.step measure).result = .ok batch) :
      Effect measure s t last
        { s with
          scheduler := { t.scheduler with active := batch }
          stepper := (s.stepper.step measure).stepper
          lastFrame := last }

/-- The session of a frame. -/
theorem Leaves.effect {measure : TextMeasure α} {s : Session α} {delta : α} {last : Option α}
    {f : Frame α} (h : Leaves measure s delta last f) :
    Effect measure s (s.scheduler.tick delta) last f.session := by
  cases h with
  | pass still =>
    refine .pass fun done => ?_
    by_contra hnot
    obtain ⟨sound, running⟩ := not_or.mp hnot
    exact still ⟨done, by simpa using sound, not_not.mp running⟩
  | halt ready result => exact .halt ready.done ready.sound ready.running result
  | advance ready result => exact .advance ready.done ready.sound ready.running result

/-- **Every call has one of the effects.** -/
theorem effect_call (measure : TextMeasure α) (s : Session α) (c : Call α) :
    Effect measure s (s.scheduler.tick (c.time s)) (c.last s) (s.call measure c).session :=
  (leaves_call measure s c).effect

/-- What every effect preserves, a run preserves. -/
theorem run_induction {P : Session α → Prop} {measure : TextMeasure α}
    (preserve : ∀ {s s' : Session α} {delta last},
      Effect measure s (s.scheduler.tick delta) last s' → P s → P s')
    {s : Session α} (h : P s) (calls : List (Call α)) : P (s.run measure calls) := by
  induction calls generalizing s with
  | nil => exact h
  | cons c calls ih => exact ih (preserve (effect_call measure s c) h)

theorem run_append (measure : TextMeasure α) (s : Session α) (calls later : List (Call α)) :
    s.run measure (calls ++ later) = (s.run measure calls).run measure later := by
  induction calls generalizing s with
  | nil => rfl
  | cons c calls ih => exact ih _

end Session

end ParseReplay
