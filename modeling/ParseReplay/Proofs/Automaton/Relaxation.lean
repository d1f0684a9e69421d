import ParseReplay.Automaton.Layout

/-!
# Runs of iterations

A relaxation is a run of iterations. What every iteration keeps, the run keeps. When the iterations
of two graphs keep them related and report the same, both runs pass the threshold together; so they
are equally long, and end with the same report and with graphs that are still related.

## Main definitions

* `Relaxation.SameReport`: two relaxations that report the same

## Main results

* `Graph.relaxWithin_related`: two runs in step
* `Graph.relax_induct`: what iterations keep, a relaxation keeps
* `Graph.relax_eq_run`: a relaxation is its run of iterations
-/

namespace ParseReplay

namespace Relaxation

variable {K : Type}

/-- The two relaxations report the same. -/
structure SameReport (r r' : Relaxation K) : Prop where
  iterations_eq : r'.iterations = r.iterations
  meanForce_eq : r'.meanForce = r.meanForce
  log_eq : r'.log = r.log

end Relaxation

namespace Graph

variable {α : Type} [Scalar α] {settings : LayoutSettings α} {r r' : Relaxation α}

/-- **Two runs in step**: iterations that keep graphs related and report the same make runs that do
so. -/
theorem relaxWithin_related {R : Graph α → Graph α → Prop}
    (hstep : ∀ g h t, R g h → R (g.iterate settings t).graph (h.iterate settings t).graph ∧
      (h.iterate settings t).meanForce = (g.iterate settings t).meanForce ∧
      (h.iterate settings t).maxStep = (g.iterate settings t).maxStep)
    (hreport : r.SameReport r') (hgraph : R r.graph r'.graph) (budget : Nat) :
    (relaxWithin settings budget r).SameReport (relaxWithin settings budget r') ∧
      R (relaxWithin settings budget r).graph (relaxWithin settings budget r').graph := by
  -- Equal longest steps pass the threshold together, so that both runs end in the same iteration.
  induction budget generalizing r r' with
  | zero => exact ⟨hreport, hgraph⟩
  | succ budget ih =>
    obtain ⟨hnext, hmean, hlongest⟩ := hstep _ _ r.iterations hgraph
    rw [relaxWithin, relaxWithin, hreport.iterations_eq, hlongest, hmean, hreport.log_eq]
    split
    · exact ⟨⟨rfl, rfl, rfl⟩, hnext⟩
    · exact ih ⟨rfl, rfl, rfl⟩ hnext

/-- A relaxation is its run of iterations, apart from a report on states that were lost. -/
theorem relax_eq_run (settings : LayoutSettings α) (g : Graph α) :
    let run := relaxWithin settings settings.iterations ⟨g, 0, 0.0, []⟩
    (g.relax settings).graph = run.graph ∧ (g.relax settings).iterations = run.iterations ∧
      (g.relax settings).meanForce = run.meanForce := by
  rw [relax]
  split
  · exact ⟨rfl, rfl, rfl⟩
  · exact ⟨rfl, rfl, rfl⟩

/-- **What iterations keep, a relaxation keeps.** -/
theorem relax_induct {g : Graph α} {P : Graph α → Prop}
    (hstep : ∀ g t, P g → P (g.iterate settings t).graph) (hg : P g) :
    P (g.relax settings).graph := by
  have hrun : ∀ budget (r : Relaxation α), P r.graph → P (relaxWithin settings budget r).graph := by
    intro budget
    -- The run may start anywhere, as the next iteration starts where this one ends.
    induction budget with
    | zero => exact fun _ hr => hr
    | succ budget ih =>
      intro r hr
      rw [relaxWithin]
      split
      · exact hstep _ _ hr
      · exact ih _ (hstep _ _ hr)
  rw [(relax_eq_run settings g).1]
  exact hrun _ _ hg

end Graph

end ParseReplay
