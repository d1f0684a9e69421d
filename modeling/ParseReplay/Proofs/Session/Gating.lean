import Mathlib.Order.Bounds.Basic
import ParseReplay.Proofs.Animation.Clock
import ParseReplay.Proofs.Session.Calls

/-!
# A session goes by the clock

A session that is driven by frames replays its first action on the first frame, and every further
one on the first frame at which the time since the last action has reached the longest duration in
that action's batch. Until then the batch is in flight, and the time that its commands have had adds
up to the time since it began, whatever the frames in between. So a batch is only begun when nothing
is in flight, and none is refused.

## Main definitions

* `Session.atFrame measure t s n`: the session before frame `n` of the clock `t`
* `Session.Steps`: a frame on which an action is replayed
* `Session.Waiting`: a batch is in flight since a given time
* `Session.Gated`: the session goes by the clock

## Main results

* `Session.steps_iff`: an action is replayed when nothing is in flight any more
* `Session.Waiting.steps_iff`, `Session.Waiting.frame`: a batch is waited for until the time has
  reached every duration in it
* `Session.gated_start`: every session goes by the clock from its start
-/

namespace ParseReplay

namespace Session

/-! ## Frames -/

section Frames

variable {α : Type} [Scalar α] {measure : TextMeasure α} {s s' : Session α}

/-- The session before frame `n`, where frame `i` is at the time `t i`. -/
def atFrame (measure : TextMeasure α) (t : ℕ → α) (s : Session α) (n : ℕ) : Session α :=
  s.run measure ((List.range n).map fun i => .frame (t i))

theorem atFrame_succ (measure : TextMeasure α) (t : ℕ → α) (s : Session α) (n : ℕ) :
    s.atFrame measure t (n + 1) = ((s.atFrame measure t n).frame measure (t n)).session := by
  rw [atFrame, List.range_succ, List.map_append, run_append]
  rfl

/-- The scheduler after a frame at the given time, before the next action is replayed. -/
def ticked (s : Session α) (timestamp : α) : Scheduler.Tick α :=
  s.scheduler.tick (Call.time s (.frame timestamp))

theorem effect_frame (measure : TextMeasure α) (s : Session α) (timestamp : α) :
    Effect measure s (s.ticked timestamp) (some timestamp) (s.frame measure timestamp).session :=
  effect_call measure s (.frame timestamp)

/-- The frame replays an action: the replay runs, and the frame leaves its next state. -/
structure Steps (measure : TextMeasure α) (s : Session α) (timestamp : α) : Prop where
  running : s.stepper.progress = .running
  stepper_eq : (s.frame measure timestamp).session.stepper = (s.stepper.step measure).stepper

/-- A replay that runs has no fault. -/
def Sound (s : Session α) : Prop := s.stepper.progress = .running → s.fault = none

theorem Sound.effect {t : Scheduler.Tick α} {last : Option α} (effect : Effect measure s t last s')
    (h : Sound s) : Sound s' := by
  cases effect with
  | pass still => exact h
  | halt done sound running result =>
    intro running'
    have hstep := Stepper.effect_step measure s.stepper
    rw [result] at hstep
    have halted : (s.stepper.step measure).stepper.progress = .halted := hstep.of_error.1
    simp [halted] at running'
  | advance done sound running result => exact fun _ => sound

/-- The scheduler is not asked for a batch while one is in flight, and gives no fault. -/
def Unrefused (s : Session α) : Prop := ∀ k, s.fault ≠ some (.batchInFlight k)

theorem Unrefused.effect {t : Scheduler.Tick α} {last : Option α}
    (effect : Effect measure s t last s') (h : Unrefused s) : Unrefused s' := by
  cases effect with
  | pass still => exact h
  | halt done sound running result =>
    intro k hk
    have hstep := Stepper.effect_step measure s.stepper
    rw [result] at hstep
    exact hstep.of_error.2 k (Option.some.inj hk)
  | advance done sound running result => exact h

/-- A frame replays an action if nothing is left in flight. -/
theorem stepper_frame_of_done {timestamp : α} (h : Sound s)
    (running : s.stepper.progress = .running) (done : (s.ticked timestamp).done = true) :
    (s.frame measure timestamp).session.stepper = (s.stepper.step measure).stepper := by
  have effect := effect_frame measure s timestamp
  generalize (s.frame measure timestamp).session = s' at effect ⊢
  cases effect with
  | pass still =>
    rcases still done with hfault | stopped
    · simp [h running] at hfault
    · exact absurd running stopped
  | halt _ sound _ result => rfl
  | advance _ sound _ result => rfl

/-- A frame leaves the replay if a batch stays in flight or the replay has stopped. -/
theorem stepper_frame_of_still {timestamp : α}
    (still : (s.ticked timestamp).done = true → s.stepper.progress ≠ .running) :
    (s.frame measure timestamp).session.stepper = s.stepper := by
  have effect := effect_frame measure s timestamp
  generalize (s.frame measure timestamp).session = s' at effect ⊢
  cases effect with
  | pass _ => rfl
  | halt done sound running result => exact absurd running (still done)
  | advance done sound running result => exact absurd running (still done)

/-- **An action is replayed when the batch in flight is done**, while the replay runs. -/
theorem steps_iff (h : Sound s) (timestamp : α) :
    s.Steps measure timestamp ↔
      s.stepper.progress = .running ∧ (s.ticked timestamp).done = true := by
  constructor
  · rintro ⟨running, heq⟩
    refine ⟨running, ?_⟩
    by_contra hdone
    rw [stepper_frame_of_still fun done => absurd done hdone] at heq
    exact (Stepper.effect_step measure s.stepper).ne_of_running running heq.symm
  · rintro ⟨running, done⟩
    exact ⟨running, stepper_frame_of_done h running done⟩

/-- The frames on which the replay moves are those on which an action is replayed. -/
theorem stepper_frame_ne_iff (h : Sound s) (timestamp : α) :
    (s.frame measure timestamp).session.stepper ≠ s.stepper ↔ s.Steps measure timestamp := by
  constructor
  · intro hne
    by_contra hsteps
    refine hne (stepper_frame_of_still fun done running => hsteps ?_)
    exact (steps_iff h timestamp).mpr ⟨running, done⟩
  · rintro ⟨running, heq⟩
    rw [heq]
    exact (Stepper.effect_step measure s.stepper).ne_of_running running

theorem position_frame_le (h : Sound s) (timestamp : α) :
    (s.frame measure timestamp).session.stepper.cursor.position ≤
      s.stepper.cursor.position + 1 := by
  by_cases hsteps : s.Steps measure timestamp
  · rw [hsteps.stepper_eq]
    exact (Stepper.effect_step measure s.stepper).position_le.2
  · rw [not_not.mp ((stepper_frame_ne_iff h timestamp).not.mpr hsteps)]
    exact Nat.le_succ _

/-- **A batch is never refused**: the scheduler takes it, and the frame leaves the scheduler with
it. -/
theorem begin_of_steps {timestamp : α} {batch : List (Command α)} (h : Sound s)
    (hsteps : s.Steps measure timestamp) (result : (s.stepper.step measure).result = .ok batch) :
    (s.ticked timestamp).scheduler.begin batch =
        .ok (s.frame measure timestamp).session.scheduler ∧
      (s.frame measure timestamp).session.scheduler.active = batch ∧
      (s.frame measure timestamp).session.lastFrame = some timestamp := by
  obtain ⟨running, done⟩ := (steps_iff h timestamp).mp hsteps
  have hactive : (s.ticked timestamp).scheduler.active = [] := Scheduler.active_tick_of_done done
  have effect := effect_frame measure s timestamp
  generalize (s.frame measure timestamp).session = s' at effect ⊢
  cases effect with
  | pass still =>
    rcases still done with hfault | stopped
    · simp [h running] at hfault
    · exact absurd running stopped
  | halt _ sound _ result' => simp [result] at result'
  | advance _ sound _ result' =>
    obtain rfl := Except.ok.inj (result.symm.trans result')
    exact ⟨by simp [Scheduler.begin, Scheduler.isSettled, hactive], rfl, rfl⟩

end Frames

/-! ## Waiting for a batch -/

/-- Two properties of numbers that agree up to the first number with the second one have the same
least number, if any. -/
theorem isLeast_congr {P Q : ℕ → Prop} (h : ∀ j, (∀ k < j, ¬ Q k) → (P j ↔ Q j)) (j : ℕ) :
    IsLeast {k | P k} j ↔ IsLeast {k | Q k} j := by
  constructor
  · rintro ⟨hj, hleast⟩
    -- Below the least number with the first property none has the second one.
    have hbelow : ∀ k < j, ¬ Q k := by
      intro k
      induction k using Nat.strongRecOn with
      | ind k ih =>
        intro hk hQ
        have hP := (h k fun m hm => ih m hm (hm.trans hk)).mpr hQ
        exact absurd (hleast hP) (not_le.mpr hk)
    exact ⟨(h j hbelow).mp hj, fun k hQ => not_lt.mp fun hk => hbelow k hk hQ⟩
  · rintro ⟨hj, hleast⟩
    have hbelow : ∀ k < j, ¬ Q k := fun k hk hQ => absurd (hleast hQ) (not_le.mpr hk)
    refine ⟨(h j hbelow).mpr hj, fun k hP => not_lt.mp fun hk => ?_⟩
    exact hbelow k hk ((h k fun m hm => hbelow m (hm.trans hk)).mp hP)

section Exact

variable {K : Type} [Field K] [LinearOrder K] [Elementary K] [IsStrictOrderedRing K]
  {measure : TextMeasure K} {s : Session K} {replay : Stepper K} {batch : List (Command K)}
  {since now timestamp : K}

/-- The batch has been in flight since the time `since`; the last frame was at the time `now`. -/
structure Waiting (replay : Stepper K) (batch : List (Command K)) (since now : K) (s : Session K) :
    Prop where
  stepper_eq : s.stepper = replay
  sound : s.Sound
  lastFrame_eq : s.lastFrame = some now
  durations : s.scheduler.active.map Command.duration = batch.map Command.duration
  ran : ∀ c ∈ s.scheduler.active, c.Ran (now - since)

theorem Waiting.time_eq (h : Waiting replay batch since now s) (hnow : now ≤ timestamp) :
    Call.time s (.frame timestamp) = timestamp - now := by
  rw [Call.time, h.lastFrame_eq]
  show Scalar.max (timestamp - now) 0.0 = timestamp - now
  rw [Scalar.max_eq, Scalar.zero_lit, max_eq_left (sub_nonneg.mpr hnow)]

/-- The times of the frames add up to the time since the batch began. -/
theorem Waiting.elapsed (h : Waiting replay batch since now s) (hnow : now ≤ timestamp) :
    now - since + Call.time s (.frame timestamp) ⊔ 0 = timestamp - since := by
  rw [h.time_eq hnow, max_eq_left (sub_nonneg.mpr hnow)]
  exact sub_add_sub_cancel' now since timestamp

/-- **The next action is replayed once the time has reached every duration in the batch.** -/
theorem Waiting.steps_iff (h : Waiting replay batch since now s)
    (running : replay.progress = .running) (hnow : now ≤ timestamp) :
    s.Steps measure timestamp ↔ ∀ c ∈ batch, c.duration ≤ timestamp - since := by
  have hrunning : s.stepper.progress = .running := h.stepper_eq ▸ running
  rw [Session.steps_iff h.sound, ticked, Scheduler.done_tick_iff h.ran, h.elapsed hnow]
  calc _ ↔ ∀ d ∈ s.scheduler.active.map Command.duration, d ≤ timestamp - since := by
        simp [hrunning]
    _ ↔ ∀ c ∈ batch, c.duration ≤ timestamp - since := by
        rw [h.durations]
        simp

/-- **A frame on which no action is replayed** leaves the batch in flight, with the time passed. -/
theorem Waiting.frame (h : Waiting replay batch since now s)
    (running : replay.progress = .running) (hnow : now ≤ timestamp)
    (hsteps : ¬ s.Steps measure timestamp) :
    Waiting replay batch since timestamp (s.frame measure timestamp).session := by
  have hdone : ¬ (s.ticked timestamp).done = true := fun done =>
    hsteps ((Session.steps_iff h.sound timestamp).mpr ⟨h.stepper_eq ▸ running, done⟩)
  have effect := effect_frame measure s timestamp
  have hsound := h.sound.effect effect
  generalize (s.frame measure timestamp).session = s' at effect hsound ⊢
  cases effect with
  | halt done _ _ result => exact absurd done hdone
  | advance done _ _ result => exact absurd done hdone
  | pass still =>
    have hactive : (s.ticked timestamp).scheduler.active =
        s.scheduler.active.map (Command.advance (Call.time s (.frame timestamp))) :=
      Scheduler.active_tick_of_not_done hdone
    refine ⟨h.stepper_eq, hsound, rfl, ?_, ?_⟩
    · show (s.ticked timestamp).scheduler.active.map Command.duration = _
      rw [hactive, List.map_map, ← h.durations]
      exact List.map_congr_left fun c _ => Command.duration_advance _ c
    · show ∀ c ∈ (s.ticked timestamp).scheduler.active, c.Ran (timestamp - since)
      rw [hactive, ← h.elapsed hnow]
      intro c' hc'
      obtain ⟨c, hc, rfl⟩ := List.mem_map.mp hc'
      exact (h.ran c hc).advance _

/-- A batch that has just begun. -/
theorem waiting_of_steps (h : Sound s) (hsteps : s.Steps measure timestamp)
    (result : (s.stepper.step measure).result = .ok batch) :
    Waiting (s.stepper.step measure).stepper batch timestamp timestamp
      (s.frame measure timestamp).session := by
  obtain ⟨-, hactive, hlast⟩ := begin_of_steps h hsteps result
  have hstep := Stepper.effect_step measure s.stepper
  rw [result] at hstep
  refine ⟨hsteps.stepper_eq, h.effect (effect_frame measure s timestamp), hlast, ?_, ?_⟩
  · rw [hactive]
  · rw [hactive, sub_self]
    intro c hc
    obtain ⟨payload, duration, rfl⟩ := hstep.fresh c hc
    exact Command.ran_fresh payload duration

/-! ## The clock of a session -/

/-- **The session goes by the clock** `t`. -/
structure Gated (measure : TextMeasure K) (t : ℕ → K) (s : Session K) : Prop where
  /-- The first frame replays an action. -/
  first : s.Steps measure (t 0)
  /-- The replay moves on no other frames than those that replay an action, by one call. -/
  moves : ∀ n, (s.atFrame measure t (n + 1)).stepper ≠ (s.atFrame measure t n).stepper ↔
    (s.atFrame measure t n).Steps measure (t n)
  /-- A frame pulls one action at most. -/
  single : ∀ n, (s.atFrame measure t (n + 1)).stepper.cursor.position ≤
    (s.atFrame measure t n).stepper.cursor.position + 1
  /-- While the replay runs, the frame of the next action is the first one at which the time since
  the last action has reached the longest duration in its batch. -/
  next : ∀ i batch, (s.atFrame measure t i).Steps measure (t i) →
    ((s.atFrame measure t i).stepper.step measure).result = .ok batch →
    (s.atFrame measure t (i + 1)).stepper.progress = .running →
    ∃ longest, IsGreatest {d | ∃ c ∈ batch, c.duration = d} longest ∧
      ∀ j, IsLeast {k | i < k ∧ (s.atFrame measure t k).Steps measure (t k)} j ↔
        IsLeast {k | i < k ∧ longest ≤ t k - t i} j
  /-- The scheduler takes every batch, and the frame leaves the scheduler with it. -/
  begun : ∀ n batch, (s.atFrame measure t n).Steps measure (t n) →
    ((s.atFrame measure t n).stepper.step measure).result = .ok batch →
    ((s.atFrame measure t n).ticked (t n)).scheduler.begin batch =
        .ok (s.atFrame measure t (n + 1)).scheduler ∧
      (s.atFrame measure t (n + 1)).scheduler.active = batch
  /-- The scheduler gives no fault. -/
  unrefused : ∀ n k, (s.atFrame measure t n).fault ≠ some (.batchInFlight k)

variable {t : ℕ → K}

omit [IsStrictOrderedRing K] in
/-- A batch that is not empty has a longest duration. -/
theorem exists_longest (h : batch ≠ []) :
    ∃ longest, IsGreatest {d | ∃ c ∈ batch, c.duration = d} longest := by
  obtain ⟨c, hc, hle⟩ := Set.exists_max_image {c | c ∈ batch} Command.duration
    (List.finite_toSet batch) (List.exists_mem_of_ne_nil batch h)
  refine ⟨c.duration, ⟨c, hc, rfl⟩, ?_⟩
  rintro _ ⟨c', hc', rfl⟩
  exact hle c' hc'

omit [IsStrictOrderedRing K] in
/-- The longest duration is reached when every duration is. -/
theorem longest_le_iff {longest : K} (h : IsGreatest {d | ∃ c ∈ batch, c.duration = d} longest)
    (x : K) : longest ≤ x ↔ ∀ c ∈ batch, c.duration ≤ x := by
  rw [isLUB_le_iff h.isLUB, mem_upperBounds]
  simp

/-- A batch that began on frame `i` is waited for on every later frame, until the time has reached
every duration in it. -/
theorem waiting_atFrame (ht : Monotone t) {i : ℕ} (running : replay.progress = .running)
    (h : Waiting replay batch (t i) (t i) (s.atFrame measure t (i + 1))) (n : ℕ)
    (hbefore : ∀ k, i < k → k < i + 1 + n → ¬ ∀ c ∈ batch, c.duration ≤ t k - t i) :
    Waiting replay batch (t i) (t (i + n)) (s.atFrame measure t (i + 1 + n)) := by
  induction n with
  | zero => exact h
  | succ n ih =>
    have hwait := ih fun k hik hk => hbefore k hik (by omega)
    have hnow : t (i + n) ≤ t (i + 1 + n) := ht (by omega)
    have hsteps : ¬ (s.atFrame measure t (i + 1 + n)).Steps measure (t (i + 1 + n)) := fun hsteps =>
      hbefore (i + 1 + n) (by omega) (by omega) ((hwait.steps_iff running hnow).mp hsteps)
    have hframe := hwait.frame running hnow hsteps
    rw [← atFrame_succ] at hframe
    rwa [show i + (n + 1) = i + 1 + n by omega]

/-- **The clock between two actions**: after an action on frame `i`, the next one is replayed on the
first frame at which the time since frame `i` has reached the longest duration. -/
theorem isLeast_steps_iff (ht : Monotone t) {i : ℕ} {longest : K}
    (running : replay.progress = .running)
    (h : Waiting replay batch (t i) (t i) (s.atFrame measure t (i + 1)))
    (hlongest : IsGreatest {d | ∃ c ∈ batch, c.duration = d} longest) (j : ℕ) :
    IsLeast {k | i < k ∧ (s.atFrame measure t k).Steps measure (t k)} j ↔
      IsLeast {k | i < k ∧ longest ≤ t k - t i} j := by
  refine isLeast_congr (fun k hbefore => and_congr_right fun hik => ?_) j
  obtain ⟨n, rfl⟩ : ∃ n, k = i + 1 + n := ⟨k - (i + 1), by omega⟩
  have hwait := waiting_atFrame ht running h n fun m him hm hle =>
    hbefore m hm ⟨him, (longest_le_iff hlongest _).mpr hle⟩
  have hnow : t (i + n) ≤ t (i + 1 + n) := ht (by omega)
  rw [hwait.steps_iff running hnow, longest_le_iff hlongest (t (i + 1 + n) - t i)]

/-- **Every session goes by the clock** from its start, whatever the times of the frames, as long as
the clock does not go back. -/
theorem gated_start {source : Source} {settings : Settings K} {viewport : Vec K} {seed : UInt64}
    {log : Log} (h : start source settings viewport seed = .ok (s, log))
    (measure : TextMeasure K) (ht : Monotone t) : s.Gated measure t := by
  obtain ⟨hstepper, hscheduler, hfault, -⟩ := start_eq h
  have hsound : ∀ n, (s.atFrame measure t n).Sound := fun n =>
    run_induction (fun effect => Sound.effect effect) (fun _ => hfault) _
  refine ⟨?_, fun n => ?_, fun n => ?_, ?_, ?_, ?_⟩
  · refine (steps_iff (hsound 0) (t 0)).mpr ⟨?_, ?_⟩
    · show s.stepper.progress = .running
      rw [hstepper]
      rfl
    · show (s.scheduler.tick _).done = true
      rw [hscheduler]
      rfl
  · rw [atFrame_succ]
    exact stepper_frame_ne_iff (hsound n) (t n)
  · rw [atFrame_succ]
    exact position_frame_le (hsound n) (t n)
  · intro i batch hsteps result running
    have hstep := Stepper.effect_step measure (s.atFrame measure t i).stepper
    rw [result] at hstep
    rw [atFrame_succ, hsteps.stepper_eq] at running
    obtain ⟨longest, hlongest⟩ := exists_longest (hstep.batch_ne_nil running)
    have hwait := waiting_of_steps (hsound i) hsteps result
    rw [← atFrame_succ] at hwait
    exact ⟨longest, hlongest, isLeast_steps_iff ht running hwait hlongest⟩
  · intro n batch hsteps result
    rw [atFrame_succ]
    obtain ⟨hbegin, hactive, -⟩ := begin_of_steps (hsound n) hsteps result
    exact ⟨hbegin, hactive⟩
  · intro n
    refine run_induction (fun effect => Unrefused.effect effect) ?_ _
    intro k
    simp [hfault]

/-- Frames at 60 to the second, and at one jump of an hour. -/
theorem gated_start_standard :
    letI : Elementary ℝ := .real (fun _ => "") fun _ _ => ""
    let t : ℕ → ℝ := fun n => if n < 100 then 16 * n else 3600000 + 16 * n
    ∃ (s : Session ℝ) (log : Log),
      start ⟨⟨"ab", [.shift, .shift, .reduce ⟨"S", 2⟩, .finish none]⟩, [[1], [0]]⟩ .standard
          ⟨800, 600⟩ 17 = .ok (s, log) ∧
        Monotone t ∧ s.Gated (fun _ _ => ⟨20, []⟩) t := by
  let _ : Elementary ℝ := .real (fun _ => "") fun _ _ => ""
  intro t
  have targets : ∀ e ∈ Adjacency.transitions [[1], [0]], e.2 < 2 := by decide
  obtain ⟨s, log, h⟩ := exists_start
    ⟨⟨"ab", [.shift, .shift, .reduce ⟨"S", 2⟩, .finish none]⟩, [[1], [0]]⟩ targets
    (Settings.standard : Settings ℝ) ⟨800, 600⟩ 17
  have ht : Monotone t := by
    refine monotone_nat_of_le_succ fun n => ?_
    dsimp only [t]
    push_cast
    split_ifs with hn hn'
    · linarith
    · linarith
    · omega
    · linarith
  exact ⟨s, log, h, ht, gated_start h _ ht⟩

end Exact

end Session

end ParseReplay
