import Mathlib.Algebra.Order.Field.Basic
import ParseReplay.Proofs.Animation.History
import ParseReplay.Proofs.Scalar.Exact

/-!
# Commands and the clock

A complete command takes no more time, so that the commands of a batch stop at different times and
none of them shows how much time has passed in all. Whether a command is complete still depends on
that time alone: it is, once the time has reached its duration. So a batch is done at the time of
its longest command, in whatever steps the time passes.

## Main definitions

* `Command.Ran e c`: the command has had the time `e`, or has stopped in it

## Main results

* `Command.Ran.advance`: the time that a command has had adds up
* `Scheduler.done_tick_iff`: a batch is done once the time has reached every duration
-/

namespace ParseReplay

variable {K : Type} [Field K] [LinearOrder K] [Elementary K] [IsStrictOrderedRing K]

namespace Command

/-- The time `e` has passed since the command began; it has had all of it, or has stopped once it
was complete. -/
structure Ran (e : K) (c : Command K) : Prop where
  nonneg : 0 ≤ c.elapsed
  le : c.elapsed ≤ e
  stopped : c.elapsed = e ∨ c.duration ≤ c.elapsed

variable {c : Command K} {e : K}

theorem isComplete_iff (h : 0 ≤ c.elapsed) : c.isComplete = true ↔ c.duration ≤ c.elapsed := by
  rw [isComplete, decide_eq_true_iff, completion, Scalar.zero_lit, Scalar.one_lit,
    Scalar.clamp_eq zero_le_one]
  by_cases hd : c.duration ≤ 0
  · -- Without a duration both sides hold from the beginning.
    rw [if_pos hd]
    exact iff_of_true le_rfl (hd.trans h)
  · rw [if_neg hd, le_sup_iff, le_inf_iff, one_le_div (not_le.mp hd)]
    constructor
    · rintro (h | ⟨-, h⟩)
      · exact absurd h (not_le.mpr one_pos)
      · exact h
    · intro h
      exact Or.inr ⟨le_rfl, h⟩

/-- **A command is complete once the time has reached its duration.** -/
theorem Ran.isComplete_iff (h : c.Ran e) : c.isComplete = true ↔ c.duration ≤ e := by
  rw [Command.isComplete_iff h.nonneg]
  rcases h.stopped with rfl | hstopped
  · rfl
  · exact iff_of_true hstopped (hstopped.trans h.le)

theorem ran_fresh (payload : Payload K) (duration : K) : (fresh payload duration).Ran 0 := by
  have h : (fresh payload duration).elapsed = 0 := Scalar.zero_lit
  exact ⟨h.ge, h.le, Or.inl h⟩

/-- **The time adds up**, also over the part in which the command has stopped. -/
theorem Ran.advance (h : c.Ran e) (delta : K) : (c.advance delta).Ran (e + delta ⊔ 0) := by
  have hdelta : 0 ≤ delta ⊔ 0 := le_sup_right
  rw [Command.advance, Scalar.max_eq, Scalar.zero_lit]
  by_cases hc : c.isComplete = true
  · rw [if_pos hc]
    exact ⟨h.nonneg, le_add_of_le_of_nonneg h.le hdelta,
      Or.inr ((Command.isComplete_iff h.nonneg).mp hc)⟩
  · rw [if_neg hc]
    -- A command that has stopped would be complete, so this one has had all of the time.
    have hrunning : c.elapsed = e := by
      refine h.stopped.resolve_right fun hstopped => hc ?_
      exact (Command.isComplete_iff h.nonneg).mpr hstopped
    have hsum : c.elapsed + delta ⊔ 0 = e + delta ⊔ 0 := by rw [hrunning]
    exact ⟨add_nonneg h.nonneg hdelta, hsum.le, Or.inl hsum⟩

omit [IsStrictOrderedRing K] in
theorem duration_advance (delta : K) (c : Command K) : (c.advance delta).duration = c.duration :=
  congrArg Prod.snd (c.subject_advance delta)

end Command

namespace Scheduler

/-- **A batch is done once the time has reached every duration** in it. -/
theorem done_tick_iff {s : Scheduler K} {e : K} (h : ∀ c ∈ s.active, c.Ran e) (delta : K) :
    (s.tick delta).done = true ↔ ∀ c ∈ s.active, c.duration ≤ e + delta ⊔ 0 := by
  show (s.active.map (Command.advance delta)).all Command.isComplete = true ↔ _
  rw [List.all_map, List.all_eq_true]
  refine forall₂_congr fun c hc => ?_
  rw [Function.comp_apply, ((h c hc).advance delta).isComplete_iff, Command.duration_advance]

end Scheduler

end ParseReplay
