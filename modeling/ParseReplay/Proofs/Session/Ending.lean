import Mathlib.Algebra.Order.Archimedean.Real.Basic
import ParseReplay.Proofs.Animation.Clock
import ParseReplay.Proofs.Session.Reports

/-!
# Every replay ends

A batch settles once the time has reached its longest duration, so that it takes a bounded number of
ticks if no tick is shorter than some positive time; it takes one tick at least, also if its
commands have no duration. The tick in which it settles already replays the next action. So the
number of ticks that a session may still run is the number of ticks left for the batch in flight and
a whole batch for every action to come; every tick lowers it, and at zero the session is idle. An
action that cannot be replayed only ends the run earlier.

At the beginning nothing is in flight. The first tick replays an action at once, like the last tick
of a batch.

## Main definitions

* `Session.Underway`: the replay runs, with a batch in flight since so many ticks
* `Session.Due`: the session is idle after so many ticks at most

## Main results

* `Session.Due.tick`: a tick brings the end nearer
* `Session.isIdle_ticks`: every session is idle after a bounded number of ticks
-/

namespace ParseReplay

namespace Session

variable {K : Type} [Field K] [LinearOrder K] [Elementary K] {measure : TextMeasure K}
  {s : Session K} {d longest delta : K} {m k i : ℕ}

/-- The replay runs. The batch in flight has had `i` ticks by `d` at least, and no command takes
longer than `longest`. -/
structure Underway (d longest : K) (i : ℕ) (s : Session K) : Prop where
  sound : s.fault = none
  running : s.stepper.progress = .running
  text_le : s.stepper.style.textDuration ≤ longest
  line_le : s.stepper.style.lineDuration ≤ longest
  duration_le : ∀ c ∈ s.scheduler.active, c.duration ≤ longest
  ran : ∃ e, i * d ≤ e ∧ ∀ c ∈ s.scheduler.active, c.Ran e

/-- The session is idle after at most `k` ticks by `d` at least, if a batch takes at most `m`. -/
def Due (d longest : K) (m k : ℕ) (s : Session K) : Prop :=
  s.isIdle = true ∨
    ∃ i < m, s.Underway d longest i ∧ m - i + s.stepper.cursor.rest.length * m ≤ k

theorem Due.isIdle (h : Due d longest m 0 s) : s.isIdle = true := by
  rcases h with hidle | ⟨i, hi, -, hk⟩
  · exact hidle
  · omega

theorem Due.mono {k' : ℕ} (h : Due d longest m k s) (hk : k ≤ k') : Due d longest m k' s := by
  rcases h with hidle | ⟨i, hi, underway, hle⟩
  · exact Or.inl hidle
  · exact Or.inr ⟨i, hi, underway, hle.trans hk⟩

variable [IsStrictOrderedRing K]

/-- A tick in which the batch stays in flight. -/
theorem Underway.pass (h : s.Underway d longest i) (hdelta : d ≤ delta)
    (hdone : ¬ (s.scheduler.tick delta).done = true) (last : Option K) :
    Underway d longest (i + 1)
      { s with scheduler := (s.scheduler.tick delta).scheduler, lastFrame := last } := by
  obtain ⟨e, he, hran⟩ := h.ran
  have hactive := Scheduler.active_tick_of_not_done hdone
  refine ⟨h.sound, h.running, h.text_le, h.line_le, ?_, e + delta ⊔ 0, ?_, ?_⟩
  · show ∀ c ∈ (s.scheduler.tick delta).scheduler.active, c.duration ≤ longest
    rw [hactive]
    intro c' hc'
    obtain ⟨c, hc, rfl⟩ := List.mem_map.mp hc'
    rw [Command.duration_advance]
    exact h.duration_le c hc
  · push_cast
    rw [add_one_mul]
    exact add_le_add he (hdelta.trans le_sup_left)
  · show ∀ c ∈ (s.scheduler.tick delta).scheduler.active, c.Ran (e + delta ⊔ 0)
    rw [hactive]
    intro c' hc'
    obtain ⟨c, hc, rfl⟩ := List.mem_map.mp hc'
    exact (hran c hc).advance delta

/-- A batch that has had all ticks but one settles in the next. -/
theorem Underway.done (h : s.Underway d longest i) (hdelta : d ≤ delta)
    (hlongest : longest ≤ (i + 1 : ℕ) * d) : (s.scheduler.tick delta).done = true := by
  obtain ⟨e, he, hran⟩ := h.ran
  rw [Scheduler.done_tick_iff hran]
  intro c hc
  calc c.duration ≤ longest := h.duration_le c hc
    _ ≤ i * d + d := by rwa [Nat.cast_add_one, add_one_mul] at hlongest
    _ ≤ e + delta ⊔ 0 := add_le_add he (hdelta.trans le_sup_left)

/-- A tick that puts the next batch in flight. -/
theorem Underway.advance {batch : List (Command K)} (h : s.Underway d longest i)
    (result : (s.stepper.step measure).result = .ok batch)
    (running : (s.stepper.step measure).stepper.progress = .running) (t : Scheduler K)
    (last : Option K) :
    Underway d longest 0
      { s with
        scheduler := { t with active := batch }
        stepper := (s.stepper.step measure).stepper
        lastFrame := last } := by
  have effect := Stepper.effect_step measure s.stepper
  rw [result] at effect
  refine ⟨h.sound, running, ?_, ?_, ?_, 0, ?_, ?_⟩
  · rw [effect.style.1]
    exact h.text_le
  · rw [effect.style.1]
    exact h.line_le
  · intro c hc
    obtain ⟨payload, rfl | rfl⟩ := effect.mem_batch hc
    · exact h.text_le
    · exact h.line_le
  · rw [Nat.cast_zero, zero_mul]
  · intro c hc
    obtain ⟨payload, duration, rfl⟩ := effect.fresh c hc
    exact Command.ran_fresh payload duration

/-- **A tick brings the end nearer.** -/
theorem Due.tick (measure : TextMeasure K) (hm : longest ≤ m * d) (hdelta : d ≤ delta)
    (h : Due d longest m (k + 1) s) :
    Due d longest m k (s.call measure (.tick delta)).session := by
  rcases h with hidle | ⟨i, hi, underway, hk⟩
  · rw [call_of_isIdle measure hidle]
    exact Or.inl hidle
  have leaves := leaves_call measure s (.tick delta)
  have effect := Stepper.effect_step measure s.stepper
  generalize s.call measure (.tick delta) = f at leaves ⊢
  cases leaves with
  | pass still =>
    have hdone : ¬ (s.scheduler.tick delta).done = true := fun done =>
      still ⟨done, underway.sound, underway.running⟩
    -- Otherwise the batch would have had all its ticks.
    have hi' : i + 1 < m := by
      by_contra hlast
      obtain rfl : m = i + 1 := by omega
      exact hdone (underway.done hdelta hm)
    refine Or.inr ⟨i + 1, hi', underway.pass hdelta hdone _, ?_⟩
    show m - (i + 1) + s.stepper.cursor.rest.length * m ≤ k
    omega
  | halt ready result =>
    exact Or.inl (isIdle_iff.mpr ⟨Scheduler.active_tick_of_done ready.done, Or.inl rfl⟩)
  | @advance batch ready result =>
    rw [result] at effect
    rcases effect.proceeds ready.running with ⟨running, hrest⟩ | ⟨finished, rfl⟩
    · refine Or.inr ⟨0, Nat.zero_lt_of_lt hi, underway.advance result running _ _, ?_⟩
      show m - 0 + (s.stepper.step measure).stepper.cursor.rest.length * m ≤ k
      rw [hrest, Nat.add_one_mul] at hk
      omega
    · refine Or.inl (isIdle_iff.mpr ⟨rfl, Or.inr ?_⟩)
      show (s.stepper.step measure).stepper.progress ≠ .running
      simp [finished]

theorem Due.run (measure : TextMeasure K) (hm : longest ≤ m * d) {deltas : List K}
    (hdeltas : ∀ x ∈ deltas, d ≤ x) (h : Due d longest m deltas.length s) :
    (s.run measure (deltas.map .tick)).isIdle = true := by
  induction deltas generalizing s with
  | nil => exact h.isIdle
  | cons x deltas ih =>
    rw [List.map_cons, Session.run]
    exact ih (fun y hy => hdeltas y (List.mem_cons_of_mem x hy))
      (Due.tick measure hm (hdeltas x List.mem_cons_self) h)

omit [IsStrictOrderedRing K] in
/-- A session at its beginning, before its first tick. -/
theorem due_start {source : Source} {settings : Settings K} {viewport : Vec K} {seed : UInt64}
    {log : Log} (h : start source settings viewport seed = .ok (s, log)) (d : K) (hm : 0 < m) :
    Due d (settings.trace.textDuration ⊔ settings.trace.lineDuration) m
      (1 + source.trace.actions.length * m) s := by
  obtain ⟨hstepper, hscheduler, sound, -⟩ := start_eq h
  have hactive : s.scheduler.active = [] := by rw [hscheduler]; rfl
  refine Or.inr ⟨m - 1, by omega, ⟨sound, ?_, ?_, ?_, ?_, _, le_rfl, ?_⟩, ?_⟩
  · rw [hstepper]
    rfl
  · rw [hstepper]
    exact le_sup_left
  · rw [hstepper]
    exact le_sup_right
  · simp [hactive]
  · simp [hactive]
  · rw [hstepper]
    show m - (m - 1) + source.trace.actions.length * m ≤ 1 + source.trace.actions.length * m
    omega

/-- **Every replay ends.** If no tick is shorter than the time `d`, the session is idle after one
tick and, for each action, as many ticks as its longest animation takes, but at least one; whether
the trace can be replayed or not. -/
theorem isIdle_ticks [FloorSemiring K] {source : Source} {settings : Settings K} {viewport : Vec K}
    {seed : UInt64} {log : Log} (h : start source settings viewport seed = .ok (s, log))
    (measure : TextMeasure K) (hd : 0 < d) {deltas : List K} (hdeltas : ∀ x ∈ deltas, d ≤ x)
    (hlength : 1 + source.trace.actions.length *
      max 1 ⌈max settings.trace.textDuration settings.trace.lineDuration / d⌉₊ ≤ deltas.length) :
    (s.run measure (deltas.map .tick)).isIdle = true := by
  set longest := max settings.trace.textDuration settings.trace.lineDuration with hlongest
  have hm : longest ≤ (max 1 ⌈longest / d⌉₊ : ℕ) * d := by
    rw [← div_le_iff₀ hd]
    exact (Nat.le_ceil _).trans (Nat.cast_le.mpr (le_max_right _ _))
  exact Due.run measure hm hdeltas ((due_start h d (by omega)).mono hlength)

/-- Ticks of 400 ms and more under the standard settings: at most two of them for a batch, so that
nine are enough for four actions. -/
theorem isIdle_ticks_standard :
    letI : Elementary ℝ := .real (fun _ => "") fun _ _ => ""
    ∃ (s : Session ℝ) (log : Log),
      start ⟨⟨"ab", [.shift, .shift, .reduce ⟨"S", 2⟩, .finish none]⟩, [[1], [0]]⟩ .standard
          ⟨800, 600⟩ 17 = .ok (s, log) ∧
        (s.run (Canvas.measure fun _ => .error "no context")
          (([400, 500, 400, 1000, 400, 400, 600, 400, 400] : List ℝ).map .tick)).isIdle = true := by
  let _ : Elementary ℝ := .real (fun _ => "") fun _ _ => ""
  have targets : ∀ e ∈ Adjacency.transitions [[1], [0]], e.2 < 2 := by decide
  obtain ⟨s, log, h⟩ := exists_start
    ⟨⟨"ab", [.shift, .shift, .reduce ⟨"S", 2⟩, .finish none]⟩, [[1], [0]]⟩ targets
    (Settings.standard : Settings ℝ) ⟨800, 600⟩ 17
  refine ⟨s, log, h, isIdle_ticks h _ (d := 400) (by norm_num) ?_ ?_⟩
  · norm_num
  · have hceil : ⌈max (500.0 : ℝ) 800.0 / 400⌉₊ ≤ 2 := Nat.ceil_le.mpr (by norm_num)
    show 1 + 4 * max 1 ⌈max (500.0 : ℝ) 800.0 / 400⌉₊ ≤ 9
    omega

end Session

end ParseReplay
