import Mathlib.Order.Bounds.Basic
import ParseReplay.Proofs.Automaton.Iteration
import ParseReplay.Proofs.Plane.Euclid

/-!
# Where a relaxation stops

A relaxation does not look ahead. It makes the iterations of one run, numbered from zero, and all
that the threshold decides is where this run is cut off: behind the first iteration in which no
state moved as far as the threshold, or where the budget is spent. So a run with a larger threshold
is a front part of the run with a smaller one, and a budget that was not needed can be enlarged
without any effect.

Of the numbers nothing is used but that what is below a threshold is below every larger one. So all
of this holds of binary64 as it runs, and not only of exact scalars.

## Main definitions

* `Graph.iterated`, `Graph.iterationAt`: the run of all iterations, whatever they report
* `Iteration.Settles`: no state moved as far as the threshold
* `Graph.stops`: the numbers of iterations after which a relaxation may stop
* `Graph.FrontPart`: a relaxation that is a front part of the run

## Main results

* `Graph.relaxWithin_frontPart`: a run stops at the first number of iterations where it may
* `Graph.relaxWithin_of_settles`: a budget beyond an iteration that settles has no effect
* `Graph.relax_frontPart`: relaxations as front parts of one run
* `Graph.AtRest.maxStep_of_gathered`: states at one point do not move
-/

namespace ParseReplay

variable {α : Type} [Scalar α]

/-- No state moved as far as the threshold, if there is one. -/
def Iteration.Settles (threshold : Option α) (i : Iteration α) : Prop :=
  ∃ bound ∈ threshold, i.maxStep < bound

theorem Iteration.settles_iff {threshold : Option α} {i : Iteration α} :
    i.Settles threshold ↔
      (threshold.any fun bound => decide (i.maxStep < bound)) = true := by
  simp only [Settles, Option.any_eq_true, Option.mem_def, decide_eq_true_eq]

namespace Graph

variable {settings settings' : LayoutSettings α} {g : Graph α} {r : Relaxation α}

/-- The graph after the iterations below `n`. -/
def iterated (settings : LayoutSettings α) (g : Graph α) : ℕ → Graph α
  | 0 => g
  | t + 1 => ((g.iterated settings t).iterate settings t).graph

/-- Iteration `t` of this run. -/
def iterationAt (settings : LayoutSettings α) (g : Graph α) (t : ℕ) : Iteration α :=
  (g.iterated settings t).iterate settings t

/-- The numbers of iterations after which a relaxation may stop that has made `start` iterations and
makes no more than `stop`: behind an iteration that settles, and at `stop`. -/
def stops (settings : LayoutSettings α) (g : Graph α) (start stop : ℕ) : Set ℕ :=
  {k | k = stop ∨ ∃ t, start ≤ t ∧ t < stop ∧ k = t + 1 ∧
    (g.iterationAt settings t).Settles settings.threshold}

/-- **A front part of the run** from `g`: the relaxation stops at the first number of iterations
from `start` on where it may, with the graph that they leave. It reports the mean force of the last
of them, or `meanForce` if there is none. -/
structure FrontPart (settings : LayoutSettings α) (g : Graph α) (start stop : ℕ) (meanForce : α)
    (r : Relaxation α) : Prop where
  isLeast_iterations : IsLeast (g.stops settings start stop) r.iterations
  graph_eq : r.graph = g.iterated settings r.iterations
  meanForce_of_none : r.iterations = start → r.meanForce = meanForce
  meanForce_eq : ∀ t, start ≤ t → r.iterations = t + 1 →
    r.meanForce = (g.iterationAt settings t).meanForce

/-! ## Where a run may stop -/

section Stops

variable {start stop : ℕ}

theorem le_of_mem_stops {k : ℕ} (hk : k ∈ g.stops settings start stop) (hle : start ≤ stop) :
    start ≤ k := by
  rcases hk with rfl | ⟨t, ht, -, rfl, -⟩
  · exact hle
  · exact ht.trans (Nat.le_succ t)

/-- With no budget left a run stops at once. -/
theorem isLeast_stops_self : IsLeast (g.stops settings stop stop) stop :=
  ⟨Or.inl rfl, fun _ hk => le_of_mem_stops hk le_rfl⟩

/-- A run stops behind its next iteration if that one settles. -/
theorem isLeast_stops_succ (hlt : start < stop)
    (h : (g.iterationAt settings start).Settles settings.threshold) :
    IsLeast (g.stops settings start stop) (start + 1) := by
  refine ⟨Or.inr ⟨start, le_rfl, hlt, rfl, h⟩, ?_⟩
  rintro k (rfl | ⟨t, ht, -, rfl, -⟩)
  · exact hlt
  · exact Nat.succ_le_succ ht

/-- A run goes on behind its next iteration if that one does not settle. -/
theorem stops_succ (h : ¬ (g.iterationAt settings start).Settles settings.threshold) :
    g.stops settings (start + 1) stop = g.stops settings start stop := by
  ext k
  refine or_congr_right (exists_congr fun t => ?_)
  constructor
  · rintro ⟨ht, hk⟩
    exact ⟨(Nat.le_succ start).trans ht, hk⟩
  · rintro ⟨ht, hlt, rfl, hsettles⟩
    -- The next iteration is not the one that settles.
    have hne : start ≠ t := fun heq => h (heq ▸ hsettles)
    exact ⟨Nat.lt_of_le_of_ne ht hne, hlt, rfl, hsettles⟩

end Stops

/-! ## The loop -/

/-- **A run stops at the first number of iterations where it may**, with what these leave. -/
theorem relaxWithin_frontPart (budget : ℕ) (hr : r.graph = g.iterated settings r.iterations) :
    g.FrontPart settings r.iterations (r.iterations + budget) r.meanForce
      (relaxWithin settings budget r) := by
  induction budget generalizing r with
  | zero =>
    refine ⟨isLeast_stops_self, hr, fun _ => rfl, ?_⟩
    intro t ht heq
    -- A run without iterations has no last one.
    exact absurd (heq ▸ ht : t + 1 ≤ t) (Nat.not_succ_le_self t)
  | succ budget ih =>
    have hnext : r.graph.iterate settings r.iterations = g.iterationAt settings r.iterations := by
      rw [hr, iterationAt]
    have hlt : r.iterations < r.iterations + (budget + 1) := Nat.lt_add_of_pos_right (by omega)
    rw [relaxWithin, hnext]
    split
    next hany =>
      refine ⟨isLeast_stops_succ hlt (Iteration.settles_iff.mpr hany), rfl, ?_, ?_⟩
      · intro heq
        exact absurd heq (Nat.succ_ne_self _)
      · intro t _ heq
        rw [← Nat.succ.inj heq]
    next hany =>
      have hsettles : ¬ (g.iterationAt settings r.iterations).Settles settings.threshold :=
        fun h => hany (Iteration.settles_iff.mp h)
      -- The rest of the run starts from the graph, the number and the mean force of the iteration.
      have hrest := ih (r := ⟨(g.iterationAt settings r.iterations).graph, r.iterations + 1,
        (g.iterationAt settings r.iterations).meanForce, r.log⟩) rfl
      have hstop : r.iterations + 1 + budget = r.iterations + (budget + 1) := by omega
      rw [hstop] at hrest
      have hle := le_of_mem_stops hrest.isLeast_iterations.1 (Nat.succ_le_of_lt hlt)
      refine ⟨stops_succ hsettles ▸ hrest.isLeast_iterations, hrest.graph_eq, ?_, ?_⟩
      · intro heq
        exact absurd (heq ▸ hle) (Nat.not_succ_le_self _)
      · intro t ht heq
        rcases Nat.eq_or_lt_of_le ht with rfl | ht
        · exact hrest.meanForce_of_none heq
        · exact hrest.meanForce_eq t ht heq

/-- **A budget beyond an iteration that settles has no effect.** -/
theorem relaxWithin_of_settles {budget budget' : ℕ} (hle : budget ≤ budget')
    (hr : r.graph = g.iterated settings r.iterations)
    (h : ∃ t, r.iterations ≤ t ∧ t < r.iterations + budget ∧
      (g.iterationAt settings t).Settles settings.threshold) :
    relaxWithin settings budget' r = relaxWithin settings budget r := by
  obtain ⟨t, hstart, hlt, hsettles⟩ := h
  induction budget generalizing r budget' with
  | zero => exact absurd hlt (by omega)
  | succ budget ih =>
    obtain ⟨rest, rfl⟩ : ∃ rest, budget' = rest + 1 := ⟨budget' - 1, by omega⟩
    have hnext : r.graph.iterate settings r.iterations = g.iterationAt settings r.iterations := by
      rw [hr, iterationAt]
    rw [relaxWithin, relaxWithin, hnext]
    split
    next => rfl
    next hany =>
      -- The iteration that settles is a later one, and both budgets still reach it.
      have hne : r.iterations ≠ t := by
        rintro rfl
        exact hany (Iteration.settles_iff.mp hsettles)
      apply ih (Nat.le_of_succ_le_succ hle) rfl
      · exact Nat.lt_of_le_of_ne hstart hne
      · show t < r.iterations + 1 + budget
        omega

/-! ## Settings with the same iterations -/

/-- Settings with the same iterations make the same run. -/
theorem iterated_congr (h : ∀ (g : Graph α) t, g.iterate settings' t = g.iterate settings t)
    (g : Graph α) (n : ℕ) : g.iterated settings' n = g.iterated settings n := by
  induction n with
  | zero => rfl
  | succ t ih => rw [iterated, iterated, ih, h]

theorem iterationAt_congr (h : ∀ (g : Graph α) t, g.iterate settings' t = g.iterate settings t)
    (g : Graph α) (t : ℕ) : g.iterationAt settings' t = g.iterationAt settings t := by
  rw [iterationAt, iterationAt, iterated_congr h, h]

/-- Settings with the same iterations and the same threshold relax alike within a budget. -/
theorem relaxWithin_congr (h : ∀ (g : Graph α) t, g.iterate settings' t = g.iterate settings t)
    (hthreshold : settings'.threshold = settings.threshold) (budget : ℕ) (r : Relaxation α) :
    relaxWithin settings' budget r = relaxWithin settings budget r := by
  induction budget generalizing r with
  | zero => rfl
  | succ budget ih =>
    rw [relaxWithin, relaxWithin, h, hthreshold]
    split
    · rfl
    · exact ih _

/-! ## Relaxations -/

/-- A relaxation is a front part of the run from its graph. -/
theorem frontPart_relax (settings : LayoutSettings α) (g : Graph α) :
    g.FrontPart settings 0 settings.iterations 0.0 (g.relax settings) := by
  have hrun : g.FrontPart settings 0 (0 + settings.iterations) 0.0
      (relaxWithin settings settings.iterations ⟨g, 0, 0.0, []⟩) :=
    relaxWithin_frontPart (r := ⟨g, 0, 0.0, []⟩) settings.iterations rfl
  rw [Nat.zero_add] at hrun
  obtain ⟨hgraph, hiterations, hmean⟩ := relax_eq_run settings g
  constructor
  · rw [hiterations]
    exact hrun.isLeast_iterations
  · rw [hgraph, hiterations]
    exact hrun.graph_eq
  · rw [hiterations, hmean]
    exact hrun.meanForce_of_none
  · rw [hiterations, hmean]
    exact hrun.meanForce_eq

/-- What is easier to settle for stops no later. -/
theorem relax_iterations_le (h : ∀ (g : Graph α) t, g.iterate settings' t = g.iterate settings t)
    (hbudget : settings'.iterations = settings.iterations)
    (hsettles : ∀ i : Iteration α, i.Settles settings.threshold → i.Settles settings'.threshold)
    (g : Graph α) : (g.relax settings').iterations ≤ (g.relax settings).iterations := by
  apply (frontPart_relax settings g).isLeast_iterations.mono
    (frontPart_relax settings' g).isLeast_iterations
  rintro k (rfl | ⟨t, ht, hlt, rfl, hsettled⟩)
  · exact Or.inl hbudget.symm
  · refine Or.inr ⟨t, ht, hbudget ▸ hlt, rfl, ?_⟩
    rw [iterationAt_congr h]
    exact hsettles _ hsettled

/-- **Relaxations are front parts of one run.** A relaxation stops behind the first iteration that
settles, or else where its budget is spent; it leaves the graph after that many iterations and
reports the last of them. With a larger threshold it stops no later, and leaves what the run for the
smaller one has come to by then. And once an iteration within the budget settles, a larger budget
changes nothing. -/
theorem relax_frontPart (hlt : ∀ x a b : α, x < a → a ≤ b → x < b) (settings : LayoutSettings α)
    (g : Graph α) :
    g.FrontPart settings 0 settings.iterations 0.0 (g.relax settings) ∧
      (∀ a b, a ≤ b →
        let strict := { settings with threshold := some a }
        let loose := { settings with threshold := some b }
        (g.relax loose).iterations ≤ (g.relax strict).iterations ∧
          (g.relax loose).graph = g.iterated strict (g.relax loose).iterations) ∧
      ∀ budget, settings.iterations ≤ budget →
        (∃ t < settings.iterations, (g.iterationAt settings t).Settles settings.threshold) →
        g.relax { settings with iterations := budget } = g.relax settings := by
  refine ⟨frontPart_relax settings g, fun a b hab => ?_, fun budget hbudget hsettles => ?_⟩
  · intro strict loose
    have hsame : ∀ (g : Graph α) t, g.iterate loose t = g.iterate strict t := fun _ _ => rfl
    constructor
    · apply relax_iterations_le hsame rfl
      rintro i ⟨bound, hbound, hstep⟩
      obtain rfl : a = bound := Option.mem_some.mp hbound
      exact ⟨b, rfl, hlt _ _ _ hstep hab⟩
    · rw [← iterated_congr hsame]
      exact (frontPart_relax loose g).graph_eq
  · obtain ⟨t, ht, hsettled⟩ := hsettles
    have hsame : ∀ (g : Graph α) t,
        g.iterate { settings with iterations := budget } t = g.iterate settings t := fun _ _ => rfl
    have hrun := relaxWithin_congr hsame rfl budget ⟨g, 0, 0.0, []⟩
    have hcut := relaxWithin_of_settles (g := g) (r := ⟨g, 0, 0.0, []⟩) hbudget rfl
      ⟨t, Nat.zero_le t, by rwa [Nat.zero_add], hsettled⟩
    rw [relax, relax, hrun, hcut]

/-- States that all stand at one point do not move. -/
theorem AtRest.maxStep_of_gathered {K : Type} [Field K] [LinearOrder K] [Elementary K]
    [IsStrictOrderedRing K] {g : Graph K} (hg : g.AtRest) {p : Vec K}
    (hp : ∀ q ∈ g.positions, q = p) (settings : LayoutSettings K) (t : ℕ) :
    (g.iterate settings t).maxStep = 0 := by
  have hplace : ∀ {i q}, g.position? i = some q → q = p := fun {i q} hq =>
    hp q (List.mem_of_getElem? ((getElem?_positions g i).trans hq))
  have hpull : ∀ i j, g.pull settings i j = 0 := by
    intro i j
    rw [pull]
    split
    next a b ha hb => rw [hplace ha, hplace hb, pairForce_self]
    next => rfl
  have hlength : ((0 : Vec K) * (cooling t : K)).length = 0 := by
    rw [Vec.zero_scale, Vec.length, Vec.lengthOr_of_tiny Vec.tiny_zero, Scalar.zero_lit]
  rw [hg.maxStep_iterate, List.foldl_map]
  simp only [netPull, hpull, Finset.sum_const_zero, hlength]
  exact List.foldl_fixed' (fun _ => sup_idem 0) _

/-- Two states at one point, with a transition between them: no force moves them, so that their
first iteration settles. -/
theorem relax_frontPart_gathered :
    letI : Elementary ℝ := .real (fun _ => "") fun _ _ => ""
    let g : Graph ℝ := ⟨#[⟨⟨1, 5⟩, Vec.zero⟩, ⟨⟨1, 5⟩, Vec.zero⟩], {1}⟩
    let settings (budget : ℕ) (bound : ℝ) : LayoutSettings ℝ := ⟨1000, 1, 40, budget, some bound⟩
    (∀ x a b : ℝ, x < a → a ≤ b → x < b) ∧ (g.relax (settings 7 1)).iterations = 1 ∧
      (g.relax (settings 7 2)).iterations ≤ (g.relax (settings 7 1)).iterations ∧
      (g.relax (settings 7 2)).graph =
        g.iterated (settings 7 1) (g.relax (settings 7 2)).iterations ∧
      g.relax (settings 1024 1) = g.relax (settings 7 1) := by
  let _ : Elementary ℝ := .real (fun _ => "") fun _ _ => ""
  intro g settings
  have hlt : ∀ x a b : ℝ, x < a → a ≤ b → x < b := fun _ _ _ => lt_of_lt_of_le
  have hsettles : (g.iterationAt (settings 7 1) 0).Settles (some 1) := by
    have hg : g.AtRest := by simp [AtRest, g]
    have hmax : (g.iterate (settings 7 1) 0).maxStep = 0 :=
      hg.maxStep_of_gathered (p := ⟨1, 5⟩) (by simp [positions, g]) _ _
    exact ⟨1, rfl, hmax ▸ one_pos⟩
  have hone : IsLeast (g.stops (settings 7 1) 0 7) 1 := isLeast_stops_succ (by decide) hsettles
  obtain ⟨hfront, hlarger, hbudget⟩ := relax_frontPart hlt (settings 7 1) g
  obtain ⟨hle, hgraph⟩ := hlarger 1 2 one_le_two
  exact ⟨hlt, hfront.isLeast_iterations.unique hone, hle, hgraph,
    hbudget 1024 (by decide) ⟨0, by decide, hsettles⟩⟩

end Graph

end ParseReplay
