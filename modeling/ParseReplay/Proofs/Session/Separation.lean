import ParseReplay.Proofs.Session.Painting

/-!
# The two pictures of a session

A session shows a replay on one surface and an automaton on the other, and both come out of the same
tick. What a tick does to the replay is decided by the stepper, the scheduler and the fault, and
none of them is ever set from the graph. The graph, in turn, is laid out at the start and then only
drawn.

So two sessions that agree in what belongs to the replay go through the same replay side by side,
however their automata differ; the relation between them is `SameReplay`. And the picture of the
automaton is one and the same from the first frame to the last.

## Main definitions

* `Session.SameReplay`: two sessions agree in what belongs to the replay
* `Frame.Alike`: two frames show and report the same of the replay, and leave such sessions

## Main results

* `Session.SameReplay.frames`: sessions that agree go through the same replay
* `Session.states_frames`: every frame of a run holds the same picture of the automaton
* `Session.layOut_congr`: a layout depends on its own settings alone
* `Session.separate_start`: neither picture depends on what belongs to the other
-/

namespace ParseReplay

variable {α : Type} [Scalar α]

namespace Session

/-- Two sessions agree in what belongs to the replay. -/
structure SameReplay (s s' : Session α) : Prop where
  stepper : s.stepper = s'.stepper
  scheduler : s.scheduler = s'.scheduler
  fault : s.fault = s'.fault
  style : s.settings.trace = s'.settings.trace
  viewport : s.viewport = s'.viewport
  lastFrame : s.lastFrame = s'.lastFrame

end Session

/-- Two frames show and report the same of the replay, and leave sessions that agree in it. -/
structure Frame.Alike (f f' : Frame α) : Prop where
  tree : f.tree = f'.tree
  log : f.log = f'.log
  session : f.session.SameReplay f'.session

namespace Session

variable {measure : TextMeasure α} {s s' : Session α} {delta : α} {last : Option α}

/-! ## The replay -/

namespace SameReplay

omit [Scalar α] in
theorem symm (h : SameReplay s s') : SameReplay s' s :=
  ⟨h.stepper.symm, h.scheduler.symm, h.fault.symm, h.style.symm, h.viewport.symm,
    h.lastFrame.symm⟩

/-- Both sessions stand at the same gate. -/
theorem ready (h : SameReplay s s') (ready : s.Ready delta) : s'.Ready delta :=
  ⟨h.scheduler ▸ ready.done, h.fault ▸ ready.sound, h.stepper ▸ ready.running⟩

theorem treePicture (h : SameReplay s s') (delta : α) :
    s.treePicture delta = s'.treePicture delta := by
  rw [Session.treePicture, Session.treePicture, h.scheduler, h.style, h.viewport]

/-- **One tick.** Whichever frame the one session leaves, the other leaves its like. -/
theorem leaves (h : SameReplay s s') {f f' : Frame α} (hf : Leaves measure s delta last f)
    (hf' : Leaves measure s' delta last f') : f.Alike f' := by
  have hpicture := h.treePicture delta
  have hstep : s.stepper.step measure = s'.stepper.step measure := by rw [h.stepper]
  have htick : s.scheduler.tick delta = s'.scheduler.tick delta := by rw [h.scheduler]
  cases hf with
  | pass still =>
    cases hf' with
    | pass still' =>
      exact ⟨hpicture, rfl, h.stepper, congrArg (·.scheduler) htick, h.fault, h.style,
        h.viewport, rfl⟩
    | halt ready' result' => exact absurd (h.symm.ready ready') still
    | advance ready' result' => exact absurd (h.symm.ready ready') still
  | halt ready result =>
    rw [hstep] at result
    cases hf' with
    | pass still' => exact absurd (h.ready ready) still'
    | halt ready' result' =>
      cases result.symm.trans result'
      exact ⟨by rw [hpicture, hstep], by rw [hstep], congrArg (·.stepper) hstep,
        congrArg (·.scheduler) htick, rfl, h.style, h.viewport, rfl⟩
    | advance ready' result' => cases result.symm.trans result'
  | advance ready result =>
    rw [hstep] at result
    cases hf' with
    | pass still' => exact absurd (h.ready ready) still'
    | halt ready' result' => cases result.symm.trans result'
    | advance ready' result' =>
      cases result.symm.trans result'
      exact ⟨by rw [hpicture, hstep], by rw [hstep], congrArg (·.stepper) hstep, by rw [htick],
        h.fault, h.style, h.viewport, rfl⟩

/-- **One call.** As the sessions agree in the time of the last frame, a frame by the clock lets the
same time pass in both. -/
theorem call (h : SameReplay s s') (measure : TextMeasure α) (c : Call α) :
    (s.call measure c).Alike (s'.call measure c) := by
  have htime : c.time s = c.time s' := by cases c <;> simp only [Call.time, h.lastFrame]
  have hlast : c.last s = c.last s' := by cases c <;> simp only [Call.last, h.lastFrame]
  have hleaves := leaves_call measure s c
  rw [htime, hlast] at hleaves
  exact h.leaves hleaves (leaves_call measure s' c)

/-- **Sessions that agree go through the same replay**, frame by frame. -/
theorem frames (h : SameReplay s s') (measure : TextMeasure α) (calls : List (Call α)) :
    List.Forall₂ Frame.Alike (s.frames measure calls) (s'.frames measure calls) := by
  induction calls generalizing s s' with
  | nil => exact .nil
  | cons c calls ih =>
    have hcall := h.call measure c
    exact .cons hcall (ih hcall.session)

end SameReplay

/-! ## The automaton -/

/-- A call leaves what the picture of the automaton is drawn from. -/
theorem statesPicture_call (measure : TextMeasure α) (s : Session α) (c : Call α) :
    (s.call measure c).session.statesPicture = s.statesPicture := by
  have hleaves := leaves_call measure s c
  generalize s.call measure c = f at hleaves ⊢
  cases hleaves <;> rfl

/-- **Every frame of a run holds the same picture of the automaton**, whatever time passes. -/
theorem states_frames (measure : TextMeasure α) (s : Session α) (calls : List (Call α)) :
    ∀ f ∈ s.frames measure calls, f.states = s.statesPicture := by
  induction calls generalizing s with
  | nil => simp [frames]
  | cons c calls ih =>
    intro f hf
    rcases List.mem_cons.mp hf with rfl | hf
    · exact (leaves_call measure s c).states
    · rw [ih _ f hf, statesPicture_call]

/-! ## The beginning -/

/-- A layout depends on its own settings alone. -/
theorem layOut_congr {settings settings' : Settings α}
    (hlayout : settings.layout = settings'.layout) (hmargins : settings.margins = settings'.margins)
    (adjacency : Adjacency) (viewport : Vec α) (seed : UInt64) :
    layOut adjacency settings viewport seed = layOut adjacency settings' viewport seed := by
  simp only [layOut, hlayout, hmargins]

section Start

variable {source source' : Source} {settings settings' : Settings α} {viewport : Vec α}
  {seed seed' : UInt64} {log log' : Log}

/-- The graph of a session at its beginning. -/
theorem layOut_of_start (h : start source settings viewport seed = .ok (s, log)) :
    ∃ notes, layOut source.adjacency settings viewport seed = .ok (s.graph, notes) := by
  unfold start at h
  cases hl : layOut source.adjacency settings viewport seed with
  | error fault =>
    rw [hl] at h
    cases h
  | ok laidOut =>
    rw [hl] at h
    cases h
    exact ⟨laidOut.2, rfl⟩

/-- Sessions of one trace agree in what belongs to the replay. -/
theorem sameReplay_start (h : start source settings viewport seed = .ok (s, log))
    (h' : start source' settings' viewport seed' = .ok (s', log'))
    (htrace : source.trace = source'.trace) (hstyle : settings.trace = settings'.trace) :
    SameReplay s s' := by
  obtain ⟨hstepper, hscheduler, hfault, hlast, hsettings, hviewport⟩ := start_eq h
  obtain ⟨hstepper', hscheduler', hfault', hlast', hsettings', hviewport'⟩ := start_eq h'
  constructor
  · rw [hstepper, hstepper', htrace, hstyle]
  · rw [hscheduler, hscheduler', hstyle]
  · rw [hfault, hfault']
  · rw [hsettings, hsettings', hstyle]
  · rw [hviewport, hviewport']
  · rw [hlast, hlast']

/-- Sessions of one automaton have the same picture of it. -/
theorem statesPicture_start (h : start source settings viewport seed = .ok (s, log))
    (h' : start source' settings' viewport seed = .ok (s', log'))
    (hadjacency : source.adjacency = source'.adjacency)
    (hlayout : settings.layout = settings'.layout) (hedges : settings.edges = settings'.edges)
    (hmargins : settings.margins = settings'.margins) : s.statesPicture = s'.statesPicture := by
  obtain ⟨notes, hlaid⟩ := layOut_of_start h
  obtain ⟨notes', hlaid'⟩ := layOut_of_start h'
  rw [hadjacency, layOut_congr hlayout hmargins, hlaid'] at hlaid
  have hgraph : s'.graph = s.graph := congrArg Prod.fst (Except.ok.inj hlaid)
  obtain ⟨-, -, -, -, hsettings, hviewport⟩ := start_eq h
  obtain ⟨-, -, -, -, hsettings', hviewport'⟩ := start_eq h'
  rw [statesPicture, statesPicture, hgraph, hsettings, hsettings', hviewport, hviewport', hlayout,
    hedges]

/-- **Neither picture depends on what belongs to the other.** With one trace, one style of the tree,
one viewport and one measure, the replays of two sessions show and report the same and are in the
same state after every call, whatever the automata. The automaton looks the same in all frames of a
session; and it looks the same in any two sessions that differ in the trace and the style of the
tree alone. -/
theorem separate_start (h : start source settings viewport seed = .ok (s, log))
    (h' : start source' settings' viewport seed' = .ok (s', log')) :
    (source.trace = source'.trace → settings.trace = settings'.trace → ∀ measure calls,
        List.Forall₂ Frame.Alike (s.frames measure calls) (s'.frames measure calls)) ∧
      ∃ picture,
        (∀ measure calls, ∀ f ∈ s.frames measure calls, f.states = picture) ∧
          (source.adjacency = source'.adjacency → settings.layout = settings'.layout →
            settings.edges = settings'.edges → settings.margins = settings'.margins →
            seed = seed' → ∀ measure calls, ∀ f ∈ s'.frames measure calls, f.states = picture) := by
  constructor
  · intro htrace hstyle measure calls
    exact (sameReplay_start h h' htrace hstyle).frames measure calls
  · refine ⟨s.statesPicture, fun measure calls => states_frames measure s calls, ?_⟩
    rintro hadjacency hlayout hedges hmargins rfl measure calls
    rw [statesPicture_start h h' hadjacency hlayout hedges hmargins]
    exact states_frames measure s' calls

end Start

/-- One trace that halts, beside two automata that have nothing in common. -/
theorem separate_start_halting :
    let source : Source := ⟨⟨"a", [.shift, .reduce ⟨"S", 3⟩, .finish none]⟩, [[1], [0]]⟩
    let source' : Source := ⟨source.trace, [[], [2, 0], [1]]⟩
    let settings : Settings Float := .standard
    let settings' : Settings Float := { settings with margins := ⟨8.0, 9.0⟩ }
    ∃ (s s' : Session Float) (log log' : Log),
      start source settings ⟨800.0, 600.0⟩ 17 = .ok (s, log) ∧
        start source' settings' ⟨800.0, 600.0⟩ 4 = .ok (s', log') ∧
          ∀ measure calls,
            List.Forall₂ Frame.Alike (s.frames measure calls) (s'.frames measure calls) := by
  intro source source' settings settings'
  have targets : ∀ e ∈ Adjacency.transitions [[1], [0]], e.2 < 2 := by decide
  have targets' : ∀ e ∈ Adjacency.transitions [[], [2, 0], [1]], e.2 < 3 := by decide
  obtain ⟨s, log, h⟩ := exists_start source targets settings ⟨800.0, 600.0⟩ 17
  obtain ⟨s', log', h'⟩ := exists_start source' targets' settings' ⟨800.0, 600.0⟩ 4
  exact ⟨s, s', log, log', h, h', (separate_start h h').1 rfl rfl⟩

end Session

end ParseReplay
