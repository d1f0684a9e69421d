import Mathlib.Algebra.Order.BigOperators.Group.Finset
import ParseReplay.Proofs.Animation.Clock

/-!
# A batch and the total time

The time of a batch passes in ticks, and every command stops by itself once it is complete. So two
commands of a batch do not show the same time, and a batch that had its time in many small ticks
does not hold the same numbers as one that had it in a few large ones. What can be seen of them is
the same: how much of each command is done depends on the total time alone, and so does whether the
batch has settled.

The reason is that a complete command does not change any more. A batch therefore goes through the
ticks command by command, whether it is in flight or has settled, and each command has had the total
time, or has stopped in it.

## Main definitions

* `Command.part`: the part of a drawing that is done after a time
* `Scheduler.afterTicks`, `time`: the scheduler after some ticks, and the time that passes in them
* `Scheduler.Timed`: a batch goes by the total time

## Main results

* `Command.Ran.completion_eq`: what is done of a command that has had a time, or has stopped in it
* `Scheduler.Stands.tick`: a tick lets a batch go on command by command, in flight or settled
* `Scheduler.timed_begin`: every batch goes by the total time
-/

namespace ParseReplay

/-! ## Commands -/

namespace Command

section After

variable {α : Type} [Scalar α]

/-- The command after the first `k` of the ticks `d`. -/
def after (d : ℕ → α) : ℕ → Command α → Command α
  | 0, c => c
  | k + 1, c => (c.after d k).advance (d k)

theorem subject_after (d : ℕ → α) (k : ℕ) (c : Command α) : (c.after d k).subject = c.subject := by
  induction k with
  | zero => rfl
  | succ k ih => rw [after, subject_advance, ih]

theorem advance_of_isComplete {c : Command α} (h : c.isComplete = true) (delta : α) :
    c.advance delta = c := if_pos h

end After

variable {K : Type} [Field K] [LinearOrder K]

/-- The part of a drawing of the given duration that is done when the time `e` has passed. -/
def part (duration e : K) : K := if duration ≤ 0 then 1 else 1 ⊓ e / duration

variable [IsStrictOrderedRing K] {e e' : K}

theorem part_mem (duration : K) (h : 0 ≤ e) : 0 ≤ part duration e ∧ part duration e ≤ 1 := by
  rw [part]
  split_ifs with hd
  · exact ⟨zero_le_one, le_rfl⟩
  · exact ⟨le_inf zero_le_one (div_nonneg h (not_le.mp hd).le), inf_le_left⟩

theorem part_mono (duration : K) (h : e ≤ e') : part duration e ≤ part duration e' := by
  rw [part, part]
  split_ifs with hd
  · exact le_rfl
  · exact inf_le_inf_left 1 (div_le_div_of_nonneg_right h (not_le.mp hd).le)

/-- **What is done of a command** depends on the time that has passed, also if it stopped in it. -/
theorem Ran.completion_eq [Elementary K] {c : Command K} (h : c.Ran e) :
    c.completion = part c.duration e := by
  rw [completion, part, Scalar.zero_lit, Scalar.one_lit, Scalar.clamp_eq zero_le_one]
  by_cases hd : c.duration ≤ 0
  · rw [if_pos hd, if_pos hd]
  · rw [if_neg hd, if_neg hd]
    have hpos : 0 < c.duration := not_le.mp hd
    rw [sup_of_le_right (le_inf zero_le_one (div_nonneg h.nonneg hpos.le))]
    rcases h.stopped with hrunning | hstopped
    · rw [hrunning]
    · -- The command has stopped at its end or behind it, and so has the time.
      rw [inf_of_le_left ((one_le_div hpos).mpr hstopped),
        inf_of_le_left ((one_le_div hpos).mpr (hstopped.trans h.le))]

end Command

/-! ## Ticks -/

namespace Scheduler

section Stands

variable {α : Type} [Scalar α] {before flown : List (Command α)} {s : Scheduler α}

/-- The scheduler after the first `k` of the ticks `d`. -/
def afterTicks (d : ℕ → α) (s : Scheduler α) : ℕ → Scheduler α
  | 0 => s
  | k + 1 => ((s.afterTicks d k).tick (d k)).scheduler

/-- A tick tells whether the batch has settled. -/
theorem done_eq_isSettled (d : ℕ → α) (s : Scheduler α) (k : ℕ) :
    ((s.afterTicks d k).tick (d k)).done = (s.afterTicks d (k + 1)).isSettled :=
  (passes_tick (d k) _).done_eq

/-- What is done of the commands, the settled ones first. -/
def completions (s : Scheduler α) : List α := (s.settled ++ s.active).map Command.completion

/-- The batch `flown` is in flight, or has settled behind the commands `before`. -/
inductive Stands (before flown : List (Command α)) (s : Scheduler α) : Prop
  | flying (settled : s.settled = before) (active : s.active = flown)
  | landed (settled : s.settled = before ++ flown) (active : s.active = [])
      (complete : ∀ c ∈ flown, c.isComplete = true)

/-- A tick tells that all is done if all of the batch is complete, in flight or settled. -/
theorem Stands.done_iff (h : Stands before flown s) (delta : α) :
    (s.tick delta).done = true ↔ ∀ c ∈ flown, (c.advance delta).isComplete = true := by
  cases h with
  | flying settled active =>
    show (s.active.map (Command.advance delta)).all Command.isComplete = true ↔ _
    rw [active, List.all_map, List.all_eq_true]
    rfl
  | landed settled active complete =>
    rw [tick_of_settled active]
    refine iff_of_true rfl ?_
    intro c hc
    rw [Command.advance_of_isComplete (complete c hc)]
    exact complete c hc

/-- **A tick lets the batch go on** command by command, whether it is in flight or has settled. -/
theorem Stands.tick (h : Stands before flown s) (delta : α) :
    Stands before (flown.map (Command.advance delta)) (s.tick delta).scheduler := by
  cases h with
  | flying settled active =>
    have passes := passes_tick delta s
    generalize (s.tick delta).scheduler = s', (s.tick delta).done = done at passes ⊢
    cases passes with
    | settle complete =>
      apply Stands.landed
      · rw [settled, active]
      · rfl
      · intro c' hc'
        obtain ⟨c, hc, rfl⟩ := List.mem_map.mp hc'
        exact complete c (active ▸ hc)
    | stay flying incomplete =>
      apply Stands.flying
      · exact settled
      · rw [active]
  | landed settled active complete =>
    -- Settled commands are complete, so that they would not have taken the time anyway.
    have hstill : flown.map (Command.advance delta) = flown := by
      refine (List.map_congr_left fun c hc => ?_).trans (List.map_id flown)
      exact Command.advance_of_isComplete (complete c hc) delta
    rw [tick_of_settled active, hstill]
    exact Stands.landed settled active complete

/-- A run of ticks lets the batch go on command by command. -/
theorem Stands.afterTicks (h : Stands before flown s) (d : ℕ → α) (k : ℕ) :
    Stands before (flown.map (Command.after d k)) (s.afterTicks d k) := by
  induction k with
  | zero =>
    have hzero : flown.map (Command.after d 0) = flown := List.map_id flown
    rw [hzero]
    exact h
  | succ k ih =>
    have hsucc : flown.map (Command.after d (k + 1)) =
        (flown.map (Command.after d k)).map (Command.advance (d k)) := by
      rw [List.map_map]
      rfl
    rw [hsucc]
    exact ih.tick (d k)

theorem Stands.completions_eq (h : Stands before flown s) :
    s.completions = (before ++ flown).map Command.completion := by
  cases h with
  | flying settled active => rw [completions, settled, active]
  | landed settled active complete => rw [completions, settled, active, List.append_nil]

/-- The batch has settled if nothing is left in flight, and is in flight otherwise. -/
theorem Stands.of_isSettled (h : Stands before flown s) :
    (s.isSettled = true → s.settled = before ++ flown ∧ s.active = []) ∧
      (s.isSettled = false → s.settled = before ∧ s.active = flown) := by
  cases h with
  | flying settled active =>
    refine ⟨fun hempty => ?_, fun _ => ⟨settled, active⟩⟩
    -- An empty batch has settled from the beginning.
    have hnil : s.active = [] := List.isEmpty_iff.mp hempty
    rw [← active, hnil, List.append_nil]
    exact ⟨settled, rfl⟩
  | landed settled active complete =>
    refine ⟨fun _ => ⟨settled, active⟩, fun hfull => ?_⟩
    rw [isSettled, active] at hfull
    cases hfull

end Stands

/-! ## The total time -/

variable {K : Type} [Field K] [LinearOrder K]

/-- The time that passes in the first `k` of the ticks `d`. Time does not go back. -/
def time (d : ℕ → K) (k : ℕ) : K := ∑ i ∈ Finset.range k, d i ⊔ 0

theorem time_succ (d : ℕ → K) (k : ℕ) : time d (k + 1) = time d k + d k ⊔ 0 :=
  Finset.sum_range_succ _ _

section Order

variable [IsStrictOrderedRing K]

theorem time_mono (d : ℕ → K) : Monotone (time d) := by
  apply monotone_nat_of_le_succ
  intro k
  rw [time_succ]
  exact le_add_of_nonneg_right le_sup_right

theorem time_nonneg (d : ℕ → K) (k : ℕ) : 0 ≤ time d k :=
  Finset.sum_nonneg fun _ _ => le_sup_right

end Order

variable [Elementary K]

/-- The commands that draw the parts, before any time has passed. -/
def batchOf (parts : List (Payload K × K)) : List (Command K) :=
  parts.map fun p => .fresh p.1 p.2

theorem subject_after_batchOf (parts : List (Payload K × K)) (d : ℕ → K) (k : ℕ) :
    ((batchOf parts).map (Command.after d k)).map Command.subject = parts := by
  rw [batchOf, List.map_map, List.map_map]
  refine (List.map_congr_left fun p _ => ?_).trans (List.map_id parts)
  exact Command.subject_after d k _

/-- **The batch goes by the total time** in the ticks `d`: `parts` is what its commands draw, and
`before` are the commands that had settled when it began. -/
structure Timed (parts : List (Payload K × K)) (before : List (Command K)) (d : ℕ → K)
    (s : Scheduler K) : Prop where
  /-- After tick `k`, so much of every command is done as the time has it. All of the batch has
  settled, in order, if the tick tells that all is done, and is in flight otherwise. -/
  commands : ∀ k, ∃ flown : List (Command K),
    flown.map Command.subject = parts ∧
      flown.map Command.completion = parts.map (fun p => Command.part p.2 (time d (k + 1))) ∧
      (((s.afterTicks d k).tick (d k)).done = true →
        (s.afterTicks d (k + 1)).settled = before ++ flown ∧ (s.afterTicks d (k + 1)).active = []) ∧
      (((s.afterTicks d k).tick (d k)).done = false →
        (s.afterTicks d (k + 1)).settled = before ∧ (s.afterTicks d (k + 1)).active = flown)
  /-- The ticks that tell that all is done are those by which the time has reached every duration,
  so that the first one is the first by which it has. -/
  done_iff : ∀ k, ((s.afterTicks d k).tick (d k)).done = true ↔ ∀ p ∈ parts, p.2 ≤ time d (k + 1)
  /-- What is done of a command is a part of the whole, -/
  part_mem : ∀ k, ∀ p ∈ parts,
    0 ≤ Command.part p.2 (time d k) ∧ Command.part p.2 (time d k) ≤ 1
  /-- and never becomes less. -/
  part_mono : ∀ j k, j ≤ k → ∀ p ∈ parts,
    Command.part p.2 (time d j) ≤ Command.part p.2 (time d k)
  /-- Other ticks that take the same time leave the same parts, and settle the batch alike. -/
  split : ∀ (d' : ℕ → K) (j k : ℕ), time d' (j + 1) = time d (k + 1) →
    (s.afterTicks d' (j + 1)).completions = (s.afterTicks d (k + 1)).completions ∧
      (s.afterTicks d' (j + 1)).isSettled = (s.afterTicks d (k + 1)).isSettled

variable [IsStrictOrderedRing K]

/-- A command that has had no time has had the total time after the ticks, or has stopped in it. -/
theorem ran_after (payload : Payload K) (duration : K) (d : ℕ → K) (k : ℕ) :
    ((Command.fresh payload duration).after d k).Ran (time d k) := by
  induction k with
  | zero => exact Command.ran_fresh payload duration
  | succ k ih =>
    rw [time_succ]
    exact ih.advance (d k)

theorem completion_after (parts : List (Payload K × K)) (d : ℕ → K) (k : ℕ) :
    ((batchOf parts).map (Command.after d k)).map Command.completion =
      parts.map fun p => Command.part p.2 (time d k) := by
  rw [batchOf, List.map_map, List.map_map]
  refine List.map_congr_left fun p _ => ?_
  have hduration : ((Command.fresh p.1 p.2).after d k).duration = p.2 :=
    congrArg Prod.snd (Command.subject_after d k _)
  rw [Function.comp_apply, Function.comp_apply, (ran_after p.1 p.2 d k).completion_eq, hduration]

/-- **A batch is done once the total time has reached every duration** in it. -/
theorem Stands.done_iff_time {before : List (Command K)} {parts : List (Payload K × K)}
    {s : Scheduler K} (h : Stands before (batchOf parts) s) (d : ℕ → K) (k : ℕ) :
    ((s.afterTicks d k).tick (d k)).done = true ↔ ∀ p ∈ parts, p.2 ≤ time d (k + 1) := by
  rw [(h.afterTicks d k).done_iff, batchOf, List.map_map]
  simp only [List.forall_mem_map]
  refine forall₂_congr fun p _ => ?_
  have hduration : ((Command.fresh p.1 p.2).after d (k + 1)).duration = p.2 :=
    congrArg Prod.snd (Command.subject_after d (k + 1) _)
  exact hduration ▸ (ran_after p.1 p.2 d (k + 1)).isComplete_iff

/-- **Every batch goes by the total time**, in whatever ticks the time passes. A scheduler with
nothing in flight takes it. -/
theorem timed_begin {s : Scheduler K} (h : s.isSettled = true) (parts : List (Payload K × K)) :
    ∃ begun, s.begin (batchOf parts) = .ok begun ∧ ∀ d, Timed parts s.settled d begun := by
  refine ⟨_, begin_of_settled (List.isEmpty_iff.mp h) _, fun d => ?_⟩
  have hbegun : Stands s.settled (batchOf parts) { s with active := batchOf parts } :=
    .flying rfl rfl
  -- From here on it matters only that the batch is in flight or has settled.
  generalize { s with active := batchOf parts } = begun at hbegun ⊢
  refine ⟨?_, hbegun.done_iff_time d, ?_, ?_, ?_⟩
  · intro k
    have hstands := hbegun.afterTicks d (k + 1)
    rw [done_eq_isSettled]
    exact ⟨_, subject_after_batchOf parts d (k + 1), completion_after parts d (k + 1),
      hstands.of_isSettled⟩
  · intro k p _
    exact Command.part_mem p.2 (time_nonneg d k)
  · intro j k hjk p _
    exact Command.part_mono p.2 (time_mono d hjk)
  · intro d' j k htime
    constructor
    · rw [(hbegun.afterTicks d' (j + 1)).completions_eq,
        (hbegun.afterTicks d (k + 1)).completions_eq, List.map_append, List.map_append,
        completion_after, completion_after, htime]
    · rw [← done_eq_isSettled, ← done_eq_isSettled, Bool.eq_iff_iff, hbegun.done_iff_time,
        hbegun.done_iff_time, htime]

/-- Four lines, one of them without a duration and one with a negative one, in ticks of 50 and one
that goes back: all is done with the tick by which 300 have passed. -/
theorem timed_begin_mixed :
    letI : Elementary ℝ := .real (fun _ => "") fun _ _ => ""
    let s : Scheduler ℝ := .empty "#000000" 2
    let line : Payload ℝ := .line ⟨0, 0⟩ ⟨0, 100⟩
    let parts : List (Payload ℝ × ℝ) := [(line, 100), (line, 0), (line, -5), (line, 300)]
    let d : ℕ → ℝ := fun k => if k = 1 then -30 else 50
    s.isSettled = true ∧ ∃ begun, s.begin (batchOf parts) = .ok begun ∧
      Timed parts s.settled d begun ∧
        IsLeast {k | ((begun.afterTicks d k).tick (d k)).done = true} 6 := by
  let _ : Elementary ℝ := .real (fun _ => "") fun _ _ => ""
  intro s line parts d
  obtain ⟨begun, hbegin, htimed⟩ := timed_begin (s := s) rfl parts
  have hbefore : time d 6 = 250 := by norm_num [time, Finset.sum_range_succ, d]
  have hlast : time d 7 = 300 := by norm_num [time, Finset.sum_range_succ, d]
  refine ⟨rfl, begun, hbegin, htimed d, ?_, ?_⟩
  · refine ((htimed d).done_iff 6).mpr ?_
    rw [hlast]
    norm_num [parts]
  · intro k hk
    have hreached : 300 ≤ time d (k + 1) :=
      ((htimed d).done_iff k).mp hk (line, 300) (by simp [parts])
    by_contra hlt
    have hle : time d (k + 1) ≤ time d 6 := time_mono d (by omega)
    rw [hbefore] at hle
    exact absurd (hreached.trans hle) (by norm_num)

end Scheduler

end ParseReplay
