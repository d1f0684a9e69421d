import ParseReplay.Proofs.Session.Calls
import ParseReplay.Scalar.Binary64

/-!
# The picture is the tree

The commands of a session, settled ones first, are the drawing of the stack's trees: a label for
every node, and behind it a line from each of its children, in postorder. A reduction moves trees
below a new root while their commands stay where they are, and the two still agree, because the
postorder keeps what was there and adds the new root at the end.

The scheduler moves commands from one list to the other and lets time pass for them, but changes
neither what they draw nor in which time. So commands only ever arrive at the end, and they arrive
together with their node.

## Main definitions

* `ParseTree.strokes`, `drawing`: what a node draws, and a forest
* `Session.Drawn`: the commands are the drawing of the stack

## Main results

* `Stepper.Effect.drawing`: a batch is the drawing of what the stack gains
* `Session.contents_run`: the commands of every run are the drawing of the stack
-/

namespace ParseReplay

variable {α : Type} [Scalar α]

/-! ## The drawing of a forest -/

/-- What a node of a tree draws: its label, and behind it a line from each child, from below the
child's label to above its own. -/
def ParseTree.strokes (style : TraceStyle α) (t : ParseTree α) : List (Payload α × α) :=
  (.text t.label t.glyph style.font, style.textDuration) ::
    t.children.map fun child =>
      (.line ⟨child.glyph.centerX, child.glyph.y + style.edgeGap⟩
        ⟨t.glyph.centerX, t.glyph.y - t.glyph.height - style.edgeGap⟩, style.lineDuration)

/-- What a forest draws, node by node in postorder. -/
def drawing (style : TraceStyle α) (ts : List (ParseTree α)) : List (Payload α × α) :=
  (ParseTree.postorderForest ts).flatMap (ParseTree.strokes style)

namespace Stepper

variable {measure : TextMeasure α} {s s' : Stepper α}

/-- The batch of a tree draws its root. -/
theorem subject_batch (h : s.font = s.style.font) (t : ParseTree α) :
    (s.batch t).map Command.subject = t.strokes s.style := by
  rw [batch, List.map_cons, List.map_map, ParseTree.strokes, ← h]
  rfl

theorem drawing_shifted (h : s.font = s.style.font) (c : Cursor) (x : Char) (input : List Char) :
    drawing s.style (s.shifted measure c x input).stack =
      drawing s.style s.stack ++ (s.batch (s.leaf measure x)).map Command.subject := by
  rw [subject_batch h, shifted_stack, drawing, leaf, ParseTree.postorderForest_leaf,
    List.flatMap_append, List.flatMap_singleton]
  rfl

theorem drawing_reduced (h : s.font = s.style.font) (c : Cursor) (r : Reduction) :
    drawing s.style (s.reduced measure c r).stack =
      drawing s.style s.stack ++ (s.batch (s.reduct measure r)).map Command.subject := by
  rw [subject_batch h, reduced_stack, drawing, reduct, adopted, ParseTree.postorderForest_adopt,
    List.flatMap_append, List.flatMap_singleton]
  rfl

/-- **A batch is the drawing of what the stack gains.** -/
theorem Effect.drawing {batch : List (Command α)} (effect : Effect measure s s' (.ok batch))
    (h : s.font = s.style.font) :
    drawing s.style s'.stack = drawing s.style s.stack ++ batch.map Command.subject := by
  cases effect with
  | rest stopped => exact (List.append_nil _).symm
  | shift running next symbol => exact drawing_shifted h _ _ _
  | reduce running next fits => exact drawing_reduced h _ _
  | finish running ends depth => exact (List.append_nil _).symm

/-- A fault leaves the stack. -/
theorem Effect.stack_of_error {fault : Fault α} (effect : Effect measure s s' (.error fault)) :
    s'.stack = s.stack := by
  cases effect
  rfl

end Stepper

/-! ## The commands of a session -/

namespace Session

/-- The commands of the session are the drawing of its stack in the given style. -/
structure Drawn (style : TraceStyle α) (s : Session α) : Prop where
  style_eq : s.stepper.style = style
  font_eq : s.stepper.font = style.font
  contents_eq : s.scheduler.contents = drawing style s.stepper.stack

variable {measure : TextMeasure α} {s s' : Session α} {delta : α} {last : Option α}
  {style : TraceStyle α}

/-- A call keeps the commands and adds those of its batch. -/
theorem Drawn.effect (h : Drawn style s)
    (effect : Effect measure s (s.scheduler.tick delta) last s') :
    Drawn style s' ∧ s.scheduler.contents <+: s'.scheduler.contents := by
  have hc := Scheduler.contents_tick delta s.scheduler
  have hkept : s.scheduler.contents <+: (s.scheduler.tick delta).scheduler.contents :=
    hc.symm ▸ List.prefix_rfl
  have hfont : s.stepper.font = s.stepper.style.font := by rw [h.font_eq, h.style_eq]
  have hstep := Stepper.effect_step measure s.stepper
  obtain ⟨hstyle, hfont'⟩ := hstep.style
  cases effect with
  | pass still => exact ⟨⟨h.style_eq, h.font_eq, hc.trans h.contents_eq⟩, hkept⟩
  | @halt fault done sound running result =>
    rw [result] at hstep
    refine ⟨⟨hstyle.trans h.style_eq, hfont'.trans h.font_eq, ?_⟩, hkept⟩
    show (s.scheduler.tick delta).scheduler.contents =
      drawing style (s.stepper.step measure).stepper.stack
    rw [hc, h.contents_eq, hstep.stack_of_error]
  | @advance batch done sound running result =>
    rw [result] at hstep
    -- Nothing is in flight, so that the batch stands behind all that has settled.
    have hbatch : Scheduler.contents { (s.scheduler.tick delta).scheduler with active := batch } =
        s.scheduler.contents ++ batch.map Command.subject := by
      rw [← hc, Scheduler.contents, Scheduler.contents, Scheduler.active_tick_of_done done,
        List.append_nil, List.map_append]
    refine ⟨⟨hstyle.trans h.style_eq, hfont'.trans h.font_eq, ?_⟩, ?_⟩
    · have hd := hstep.drawing hfont
      rw [h.style_eq] at hd
      show Scheduler.contents { (s.scheduler.tick delta).scheduler with active := batch } = _
      rw [hbatch, h.contents_eq, ← hd]
    · show _ <+: Scheduler.contents { (s.scheduler.tick delta).scheduler with active := batch }
      rw [hbatch]
      exact List.prefix_append _ _

theorem Drawn.run (h : Drawn style s) (calls : List (Call α)) : Drawn style (s.run measure calls) :=
  run_induction (fun effect h => (h.effect effect).1) h calls

theorem Drawn.contents_isPrefix (h : Drawn style s) (calls : List (Call α)) :
    s.scheduler.contents <+: (s.run measure calls).scheduler.contents := by
  induction calls generalizing s with
  | nil => exact List.prefix_rfl
  | cons c calls ih =>
    obtain ⟨h', hp⟩ := h.effect (effect_call measure s c)
    exact hp.trans (ih h')

theorem drawn_start {source : Source} {settings : Settings α} {viewport : Vec α} {seed : UInt64}
    {log : Log} (h : start source settings viewport seed = .ok (s, log)) :
    Drawn settings.trace s := by
  obtain ⟨hstepper, hscheduler, -⟩ := start_eq h
  refine ⟨?_, ?_, ?_⟩
  · rw [hstepper]
    rfl
  · rw [hstepper]
    rfl
  · rw [hscheduler, hstepper]
    simp [Scheduler.empty, Scheduler.contents, Stepper.ofTrace, drawing]

/-- **The picture is always the tree.** After every run of ticks and frames, also after a fault, the
commands of a session are the drawing of its stack; and what they draw at an earlier time is the
front part of what they draw later, so that no command is lost, repeated or moved. -/
theorem contents_run {source : Source} {settings : Settings α} {viewport : Vec α} {seed : UInt64}
    {log : Log} (h : start source settings viewport seed = .ok (s, log))
    (measure : TextMeasure α) (calls later : List (Call α)) :
    (s.run measure calls).scheduler.contents =
        drawing settings.trace (s.run measure calls).stepper.stack ∧
      (s.run measure calls).scheduler.contents <+:
        (s.run measure (calls ++ later)).scheduler.contents := by
  have hd : Drawn settings.trace (s.run measure calls) := (drawn_start h).run calls
  rw [run_append]
  exact ⟨hd.contents_eq, hd.contents_isPrefix later⟩

/-- Two leaves and the node that takes them in, driven by ticks and frames. -/
theorem contents_run_standard :
    ∃ (s : Session Float) (log : Log),
      start ⟨⟨"ab", [.shift, .shift, .reduce ⟨"S", 2⟩, .finish none]⟩, [[1], [0]]⟩ .standard
          ⟨800.0, 600.0⟩ 17 = .ok (s, log) ∧
        let measure := Typeface.measure ⟨10.0, []⟩
        let calls := [.tick 1000.0, .frame 0.0, .frame 500.0, .tick 250.0]
        let later := [.frame 900.0, .tick 5000.0, .frame 100.0]
        (s.run measure calls).scheduler.contents =
            drawing Settings.standard.trace (s.run measure calls).stepper.stack ∧
          (s.run measure calls).scheduler.contents <+:
            (s.run measure (calls ++ later)).scheduler.contents := by
  have targets : ∀ e ∈ Adjacency.transitions [[1], [0]], e.2 < 2 := by decide
  obtain ⟨s, log, h⟩ := exists_start
    ⟨⟨"ab", [.shift, .shift, .reduce ⟨"S", 2⟩, .finish none]⟩, [[1], [0]]⟩ targets
    (Settings.standard : Settings Float) ⟨800.0, 600.0⟩ 17
  exact ⟨s, log, h, contents_run h _ _ _⟩

end Session

end ParseReplay
