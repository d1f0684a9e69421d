import ParseReplay.Proofs.Automaton.Picture
import ParseReplay.Proofs.Session.Reports

/-!
# Pictures owe nothing to earlier ones

The pictures of a session are drawn on the same two contexts frame by frame, and a text that is
measured leaves its font behind. No picture restores what it sets but for the alpha, which a label
sets to its completion and then back. So a picture relies on a solid context, and leaves one; the
rest it sets before it is read. What is painted is then a function of the session and of the time
that passes, written down here as a list of marks.

## Main definitions

* `Command.mark`: what a command paints
* `Session.treeMarks`, `Session.statesMarks`: what the two pictures of a call paint
* `Session.Painting`: what the calls of a session paint on a context

## Main results

* `Command.paints_picture`, `Session.paints_treePicture`: the pictures paint these marks
* `Session.paints_run`: the measuring in a run paints nothing, and changes nothing that is painted
* `Session.painting`: the pictures of every session on every solid context
-/

namespace ParseReplay

open Canvas (Context Mark Paints)

variable {α : Type} [Scalar α]

/-! ## The tree -/

/-- What a command paints at the present time. -/
def Command.mark (ink : String) (lineWidth : α) (c : Command α) : Mark α :=
  match c.payload with
  | .line start stop =>
    .stroke ([.moveTo start, .lineTo (start.lerp stop c.completion)].flatMap DrawOp.calls)
      ink lineWidth 1.0
  | .text label glyph font =>
    .text label glyph.origin.x glyph.origin.y font ink c.completion

theorem Command.paints_picture (ink : String) (lineWidth : α) (c : Command α) :
    Paints Context.Solid Context.Solid (c.picture ink lineWidth) [c.mark ink lineWidth] := by
  intro x hx
  have halpha : x.alpha = 1.0 := hx
  rw [picture, mark]
  cases c.payload with
  | line start stop => exact ⟨congrArg (fun a => [Mark.stroke _ ink lineWidth a]) halpha, hx⟩
  | text label glyph font => exact ⟨rfl, rfl⟩

/-- A command that paints a text shows a label, as faded as it is incomplete. -/
theorem Command.isText_mark {ink : String} {lineWidth : α} {c : Command α}
    (text : (c.mark ink lineWidth).isText = true) :
    ∃ label glyph font, c.payload = .text label glyph font ∧
      c.mark ink lineWidth =
        .text label glyph.origin.x glyph.origin.y font ink c.completion := by
  unfold mark at text ⊢
  cases hpayload : c.payload with
  | line start stop => simp [hpayload, Mark.isText] at text
  | text label glyph font => exact ⟨label, glyph, font, rfl, rfl⟩

/-- A command that paints no text paints nothing faded. -/
theorem Command.alpha_mark {ink : String} {lineWidth : α} {c : Command α}
    (text : (c.mark ink lineWidth).isText = false) : (c.mark ink lineWidth).alpha = 1.0 := by
  unfold mark at text ⊢
  cases hpayload : c.payload with
  | line start stop => rfl
  | text label glyph font => simp [hpayload, Mark.isText] at text

namespace Session

/-! ## A call -/

/-- The commands that a tick draws. -/
def commands (s : Session α) (delta : α) : List (Command α) :=
  s.scheduler.settled ++ s.scheduler.active.map (Command.advance delta)

/-- What a call paints of the tree: the background, and one mark for each command. -/
def treeMarks (s : Session α) (delta : α) : List (Mark α) :=
  [backgroundMark s.settings.trace.background s.viewport] ++
    (s.commands delta).flatMap fun c => [c.mark s.scheduler.ink s.scheduler.lineWidth]

/-- What a call paints of the automaton. -/
def statesMarks (s : Session α) : List (Mark α) :=
  s.graph.marks s.settings.edges s.settings.layout.idealLength s.viewport

theorem paints_treePicture (s : Session α) (delta : α) :
    Paints Context.Solid Context.Solid (s.treePicture delta) (s.treeMarks delta) :=
  (paints_background _ _).append (Paints.flatMap fun c _ => c.paints_picture _ _)

/-- Measures paint nothing, although they leave their font. -/
theorem paints_measures {ops : List (DrawOp α)}
    (h : ∀ op ∈ ops, op.measures = true) : Paints Context.Solid Context.Solid ops [] := by
  have hops : Paints Context.Solid Context.Solid (ops.flatMap fun op => [op])
      (ops.flatMap fun _ => ([] : List (Mark α))) := by
    -- A measure sets the font, of which a solid context promises nothing.
    refine Paints.flatMap fun op hop => ?_
    cases op with
    | measureText text font => exact fun x hx => ⟨rfl, hx⟩
    | _ => exact absurd (h _ hop) (by simp [DrawOp.measures])
  rwa [List.flatMap_singleton', List.flatMap_eq_nil_iff.mpr fun _ _ => rfl] at hops

variable {measure : TextMeasure α} {s : Session α} {delta : α} {last : Option α}

/-- The operations of a call on the tree are the picture, and measures behind it. -/
theorem Leaves.exists_tree {f : Frame α} (h : Leaves measure s delta last f) :
    ∃ ops, f.tree = s.treePicture delta ++ ops ∧ ∀ op ∈ ops, op.measures = true := by
  cases h with
  | pass still => exact ⟨[], (List.append_nil _).symm, by simp⟩
  | halt ready result => exact ⟨_, rfl, (Stepper.reported_step measure s.stepper).measures⟩
  | advance ready result => exact ⟨_, rfl, (Stepper.reported_step measure s.stepper).measures⟩

theorem Leaves.states {f : Frame α} (h : Leaves measure s delta last f) :
    f.states = s.statesPicture := by
  cases h <;> rfl

/-- **What a call paints of the tree**, whether the texts are measured or not. -/
theorem paints_tree (measure : TextMeasure α) (s : Session α) (c : Call α) :
    Paints Context.Solid Context.Solid (s.call measure c).tree (s.treeMarks (c.time s)) ∧
      Paints Context.Solid Context.Solid ((s.call measure c).tree.filter fun op => !op.measures)
        (s.treeMarks (c.time s)) := by
  obtain ⟨ops, htree, hops⟩ := (leaves_call measure s c).exists_tree
  have hpicture := s.paints_treePicture (c.time s)
  rw [htree]
  constructor
  · have h := hpicture.append (paints_measures hops)
    rwa [List.append_nil] at h
  · -- Without the measures the picture is left.
    rw [List.filter_append,
      List.filter_eq_self.mpr fun op hop => by simp [s.measures_treePicture _ op hop],
      List.filter_eq_nil_iff.mpr fun op hop => by simp [hops op hop], List.append_nil]
    exact hpicture

theorem paints_states (measure : TextMeasure α) (s : Session α) (c : Call α) :
    Paints Context.Solid Context.Solid (s.call measure c).states s.statesMarks := by
  rw [(leaves_call measure s c).states]
  exact s.graph.paints_picture _ _ _

/-! ## Runs -/

/-- What a run paints of the tree. -/
def runMarks (measure : TextMeasure α) : Session α → List (Call α) → List (Mark α)
  | _, [] => []
  | s, c :: calls =>
    s.treeMarks (c.time s) ++ (s.call measure c).session.runMarks measure calls

/-- **The measuring in a run paints nothing, and changes nothing that is painted**, neither in its
own call nor in a later one. -/
theorem paints_run (measure : TextMeasure α) (s : Session α) (calls : List (Call α)) :
    Paints Context.Solid Context.Solid ((s.frames measure calls).flatMap Frame.tree)
        (s.runMarks measure calls) ∧
      Paints Context.Solid Context.Solid
        (((s.frames measure calls).flatMap Frame.tree).filter fun op => !op.measures)
        (s.runMarks measure calls) := by
  induction calls generalizing s with
  | nil => exact ⟨Paints.nil, Paints.nil⟩
  | cons c calls ih =>
    -- The two contexts may differ from here on, but both are solid.
    obtain ⟨hcall, hcall'⟩ := paints_tree measure s c
    obtain ⟨hrun, hrun'⟩ := ih (s.call measure c).session
    rw [frames, List.flatMap_cons, List.filter_append, runMarks]
    exact ⟨hcall.append hrun, hcall'.append hrun'⟩

/-! ## The marks -/

theorem mem_treeMarks {m : Mark α} (hm : m ∈ s.treeMarks delta) :
    m = backgroundMark s.settings.trace.background s.viewport ∨
      ∃ c ∈ s.commands delta, m = c.mark s.scheduler.ink s.scheduler.lineWidth := by
  rcases List.mem_append.mp hm with hm | hm
  · exact Or.inl (List.mem_singleton.mp hm)
  · obtain ⟨c, hc, hm⟩ := List.mem_flatMap.mp hm
    exact Or.inr ⟨c, hc, List.mem_singleton.mp hm⟩

/-- The picture of the automaton holds no text and nothing faded. -/
theorem mem_statesMarks {m : Mark α} (hm : m ∈ s.statesMarks) :
    m.isText = false ∧ m.alpha = 1.0 := by
  simp only [statesMarks, Graph.marks, List.mem_append, List.mem_singleton,
    List.mem_flatMap] at hm
  obtain ((rfl | rfl) | ⟨shape, -, hm⟩) | ⟨p, -, rfl⟩ := hm
  · exact ⟨rfl, rfl⟩
  · exact ⟨rfl, rfl⟩
  · rcases List.mem_pair.mp hm with rfl | rfl <;> exact ⟨rfl, rfl⟩
  · exact ⟨rfl, rfl⟩

/-! ## Sessions -/

/-- **What the calls of a session paint on a context.** -/
structure Painting (measure : TextMeasure α) (s : Session α) (x : Context α) : Prop where
  /-- The marks of the tree are given by the session and the time that passes. -/
  tree : ∀ c, x.marks (s.call measure c).tree = s.treeMarks (c.time s)
  /-- The marks of the automaton are given by the session. -/
  states : ∀ c, x.marks (s.call measure c).states = s.statesMarks
  /-- Both contexts are left solid. -/
  solid : ∀ c, (x.after (s.call measure c).tree).Solid ∧ (x.after (s.call measure c).states).Solid
  /-- What is no text is not faded. -/
  unfaded : ∀ delta, ∀ m ∈ s.treeMarks delta ++ s.statesMarks, m.isText = false → m.alpha = 1.0
  /-- A text is the label of a command, with the alpha of its completion. -/
  labels : ∀ delta, ∀ m ∈ s.treeMarks delta ++ s.statesMarks, m.isText = true →
    ∃ c ∈ s.commands delta, ∃ label glyph font, c.payload = .text label glyph font ∧
      m = .text label glyph.origin.x glyph.origin.y font s.scheduler.ink c.completion
  /-- A whole run paints the same without the measures in it. -/
  measured : ∀ calls,
    x.marks ((s.frames measure calls).flatMap Frame.tree) = s.runMarks measure calls ∧
      x.marks (((s.frames measure calls).flatMap Frame.tree).filter fun op => !op.measures) =
        s.runMarks measure calls

/-- **A picture owes nothing to what its context has been left with**, be it by earlier pictures or
by a measure, as long as the context is solid. -/
theorem painting (measure : TextMeasure α) (s : Session α) {x : Context α} (hx : x.Solid) :
    s.Painting measure x := by
  have htree := fun c => (paints_tree measure s c).1 x hx
  have hstates := fun c => paints_states measure s c x hx
  have hrun := fun calls => paints_run measure s calls
  refine ⟨fun c => (htree c).1, fun c => (hstates c).1, fun c => ⟨(htree c).2, (hstates c).2⟩,
    ?_, ?_, fun calls => ⟨((hrun calls).1 x hx).1, ((hrun calls).2 x hx).1⟩⟩
  · intro delta m hm text
    rcases List.mem_append.mp hm with hm | hm
    · obtain rfl | ⟨c, -, rfl⟩ := mem_treeMarks hm
      · rfl
      · exact Command.alpha_mark text
    · exact (mem_statesMarks hm).2
  · intro delta m hm text
    rcases List.mem_append.mp hm with hm | hm
    · obtain rfl | ⟨c, hc, rfl⟩ := mem_treeMarks hm
      · cases text
      · exact ⟨c, hc, Command.isText_mark text⟩
    · rw [(mem_statesMarks hm).1] at text
      cases text

/-- A session in the middle of a label, on a context with colors, a width, a font and half a path
from elsewhere. -/
theorem painting_leftover :
    ∃ (s : Session Float) (log : Log),
      start ⟨⟨"ab", [.shift, .shift, .reduce ⟨"S", 2⟩, .finish none]⟩, [[1], [0]]⟩ .standard
          ⟨800.0, 600.0⟩ 17 = .ok (s, log) ∧
        let measure : TextMeasure Float := Canvas.measure fun _ => .error "no context"
        let x : Context Float := ⟨"red", "blue", 7.0, "8px serif", 1.0, [.moveTo 3.0 4.0]⟩
        x.Solid ∧ (s.run measure [.tick 16.0, .tick 250.0]).Painting measure x := by
  have targets : ∀ e ∈ Adjacency.transitions [[1], [0]], e.2 < 2 := by decide
  obtain ⟨s, log, h⟩ := exists_start
    ⟨⟨"ab", [.shift, .shift, .reduce ⟨"S", 2⟩, .finish none]⟩, [[1], [0]]⟩ targets
    (Settings.standard : Settings Float) ⟨800.0, 600.0⟩ 17
  exact ⟨s, log, h, rfl, painting _ _ rfl⟩

end Session

end ParseReplay
