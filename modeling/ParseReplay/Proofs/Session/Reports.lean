import ParseReplay.Proofs.Session.Calls
import ParseReplay.Scalar.Binary64
import ParseReplay.Surface.Canvas

/-!
# The end of a session, and what is reported

A session is idle when nothing is in flight and no action will be replayed. From then on a call only
notes the time: the settled commands are drawn as they are, and the gate in front of the next action
stays shut. So every call draws the same and reports nothing.

A replay ends once, by a fault or well, and either end is reported by the very call that meets it.
The reports of a run are those of the measure about the texts that it measures and those of the
session itself, so that a report is counted with the share of the measure set apart; the measures of
a canvas and of a typeface report no end.

## Main definitions

* `DrawOp.measures`, `measureReports`: operations that measure, and what a measure reports about
  their texts
* `LogRecord.tellsHalt`, `LogRecord.tellsFinish`: the reports of either end
* `Session.frames`: the frames of a run
* `Session.Final`: nothing happens any more
* `Session.Ends`: how a run ends

## Main results

* `Session.final_of_isIdle`: idle is final
* `Stepper.reported_step`: besides the measure's, the stepper's reports are of the lowest level
* `Session.Leaves.countP_log`: a call that meets an end reports it, and no other call does
* `Session.ends_run`: how every run of a session ends
-/

namespace ParseReplay

variable {α : Type} [Scalar α]

/-! ## The reports of a measure -/

omit [Scalar α] in
/-- The operation measures a text. -/
def DrawOp.measures : DrawOp α → Bool
  | .measureText .. => true
  | _ => false

omit [Scalar α] in
/-- What a measure reports about the texts that are measured by the operations. -/
def measureReports (measure : TextMeasure α) (ops : List (DrawOp α)) : Log :=
  ops.flatMap fun
    | .measureText text font => (measure text font).log
    | _ => []

omit [Scalar α] in
theorem measureReports_append (measure : TextMeasure α) (ops ops' : List (DrawOp α)) :
    measureReports measure (ops ++ ops') =
      measureReports measure ops ++ measureReports measure ops' := List.flatMap_append

theorem Canvas.level_measure (advance : String → Except String α) (text font : String) :
    ∀ r ∈ (Canvas.measure advance text font).log, r.level = .warn := by
  unfold Canvas.measure
  split <;> simp [LogRecord.warn]

theorem Command.measures_picture (ink : String) (lineWidth : α) (c : Command α) :
    ∀ op ∈ c.picture ink lineWidth, op.measures = false := by
  unfold picture
  cases c.payload <;> simp [DrawOp.measures]

/-- To draw the tree nothing is measured. -/
theorem Session.measures_treePicture (s : Session α) (delta : α) :
    ∀ op ∈ s.treePicture delta, op.measures = false := by
  intro op hop
  rcases List.mem_append.mp hop with hop | hop
  · rcases List.mem_pair.mp hop with rfl | rfl <;> rfl
  · obtain ⟨c, -, hop⟩ := List.mem_flatMap.mp hop
    exact c.measures_picture _ _ op hop

omit [Scalar α] in
theorem measureReports_eq_nil (measure : TextMeasure α) {ops : List (DrawOp α)}
    (h : ∀ op ∈ ops, op.measures = false) : measureReports measure ops = [] := by
  refine List.flatMap_eq_nil_iff.mpr fun op hop => ?_
  cases op with
  | measureText text font => exact absurd (h _ hop) (by simp [DrawOp.measures])
  | _ => rfl

theorem Session.measureReports_treePicture (measure : TextMeasure α) (s : Session α) (delta : α) :
    measureReports measure (s.treePicture delta) = [] :=
  measureReports_eq_nil measure (s.measures_treePicture delta)

/-! ## The reports of the stepper -/

/-- The operations only measure, and besides the measure's the reports are of the lowest level. -/
structure Outcome.Reported {β : Type} (measure : TextMeasure α) (o : Outcome α β) : Prop where
  measures : ∀ op ∈ o.ops, op.measures = true
  log : ∃ notes, o.log = measureReports measure o.ops ++ notes ∧ ∀ r ∈ notes, r.level = .debug

namespace Stepper

theorem reported_shift (measure : TextMeasure α) (s : Stepper α) :
    (s.shift measure).Reported measure := by
  rw [shift]
  split
  · exact ⟨by simp, [], by simp [measureReports]⟩
  · exact ⟨by simp [DrawOp.measures], [], by simp [measureReports]⟩

theorem reported_reduce (measure : TextMeasure α) (s : Stepper α) (symbol : String) (size : ℕ) :
    (s.reduce measure symbol size).Reported measure := by
  simp only [reduce]
  split
  · exact ⟨by simp, [], by simp [measureReports]⟩
  · exact ⟨by simp [DrawOp.measures], [], by simp [measureReports]⟩

theorem reported_announce {measure : TextMeasure α} {o : Outcome α Unit} (h : o.Reported measure)
    (text : ParseTree α → String) : (announce (fun t => .debug (text t)) o).Reported measure := by
  obtain ⟨hmeasures, notes, hlog, hnotes⟩ := h
  unfold announce
  split
  next top _ _ =>
    refine ⟨hmeasures, notes ++ [.debug (text top)], by simp [hlog], ?_⟩
    intro r hr
    rcases List.mem_append.mp hr with hr | hr
    · exact hnotes r hr
    · rw [List.mem_singleton.mp hr]
      rfl
  next => exact ⟨hmeasures, notes, hlog, hnotes⟩
  next => exact ⟨hmeasures, notes, hlog, hnotes⟩

omit [Scalar α] in
theorem reported_close (measure : TextMeasure α) (s : Stepper α) (text : String) :
    (s.close (.debug text)).Reported measure := by
  simp only [close, finish]
  split <;> exact ⟨by simp, [.debug text], rfl, by simp [LogRecord.debug]⟩

/-- **The reports of a step**, which only measures. -/
theorem reported_step (measure : TextMeasure α) (s : Stepper α) :
    (s.step measure).Reported measure := by
  have happly : (s.applyNext measure).Reported measure := by
    unfold applyNext
    split
    next => exact reported_close measure _ _
    next action cursor _ =>
      cases action with
      | shift => exact reported_announce (reported_shift measure _) _
      | reduce r => exact reported_announce (reported_reduce measure _ _ _) _
      | finish result => exact reported_close measure _ _
  unfold step
  by_cases running : s.progress = .running
  · simp only [running, if_true]
    cases (s.applyNext measure).result <;> exact ⟨happly.measures, happly.log⟩
  · simp only [running, if_false]
    exact ⟨by simp, [], rfl, by simp⟩

end Stepper

/-! ## The reports of a layout -/

/-- A relaxation reports neither progress nor an error. -/
theorem Graph.level_relax (settings : LayoutSettings α) (g : Graph α) :
    ∀ r ∈ (g.relax settings).log, r.level = .debug ∨ r.level = .warn := by
  have hrun : ∀ budget (r : Relaxation α), (∀ x ∈ r.log, x.level = .debug ∨ x.level = .warn) →
      ∀ x ∈ (Graph.relaxWithin settings budget r).log, x.level = .debug ∨ x.level = .warn := by
    intro budget
    induction budget with
    | zero => exact fun _ hr => hr
    | succ budget ih =>
      intro r hr
      simp only [Graph.relaxWithin]
      split
      · intro x hx
        rcases List.mem_append.mp hx with hx | hx
        · exact hr x hx
        · rw [List.mem_singleton.mp hx]
          exact Or.inl rfl
      · exact ih _ hr
  have hlog := hrun settings.iterations ⟨g, 0, 0.0, []⟩ (by simp)
  rw [Graph.relax]
  split
  · exact hlog
  · intro x hx
    rcases List.mem_append.mp hx with hx | hx
    · exact hlog x hx
    · rw [List.mem_singleton.mp hx]
      exact Or.inr rfl

/-! ## The reports of the two ends -/

namespace LogRecord

/-- The record tells that the replay was halted. -/
def tellsHalt (r : LogRecord) : Bool :=
  decide (r.level = .error) && "trace replay halted: ".toList.isPrefixOf r.text.toList

/-- The record tells that the replay has finished. -/
def tellsFinish (r : LogRecord) : Bool :=
  decide (r.level = .info) && "replay finished with ".toList.isPrefixOf r.text.toList

theorem not_tellsHalt {r : LogRecord} (h : r.level ≠ .error) : r.tellsHalt = false := by
  simp [tellsHalt, h]

theorem not_tellsFinish {r : LogRecord} (h : r.level ≠ .info) : r.tellsFinish = false := by
  simp [tellsFinish, h]

theorem tellsHalt_haltRecord (fault : Fault α) : (Session.haltRecord fault).tellsHalt = true := by
  simp [tellsHalt, Session.haltRecord, LogRecord.error]

theorem tellsFinish_haltRecord (fault : Fault α) :
    (Session.haltRecord fault).tellsFinish = false :=
  not_tellsFinish (show Level.error ≠ Level.info by decide)

end LogRecord

/-- The report of a step behind which the replay has finished. It needs the tree at the root. -/
theorem Stepper.Effect.countP_finishReport {measure : TextMeasure α} {s s' : Stepper α}
    {batch : List (Command α)} (effect : Stepper.Effect measure s s' (.ok batch))
    (running : s.progress = .running) :
    (Session.finishReport s').countP LogRecord.tellsHalt = 0 ∧
      (Session.finishReport s').countP LogRecord.tellsFinish =
        if s'.progress = .finished then 1 else 0 := by
  cases effect with
  | rest stopped => exact absurd running stopped
  | shift _ next symbol => simp [shifted, push, running, Session.finishReport]
  | reduce _ next fits => simp [reduced, push, running, Session.finishReport]
  | finish _ ends depth =>
    obtain ⟨root, hroot⟩ := List.length_eq_one_iff.mp depth
    simp [Session.finishReport, hroot, LogRecord.tellsHalt, LogRecord.tellsFinish, LogRecord.info]

namespace Session

open LogRecord

variable {measure : TextMeasure α} {s s' : Session α} {delta : α} {last : Option α}

omit [Scalar α] in
theorem countP_batchReport (s : Stepper α) (batch : List (Command α)) :
    (batchReport s batch).countP tellsHalt = 0 ∧ (batchReport s batch).countP tellsFinish = 0 := by
  unfold batchReport
  split <;> simp [tellsHalt, tellsFinish, LogRecord.debug]

/-- **A call that meets an end reports it**, and no other call does: the session's own reports tell
of a halt exactly where the session gets a fault, and of the finish exactly where the replay
finishes. -/
theorem Leaves.countP_log {f : Frame α} (h : Leaves measure s delta last f) :
    f.log.countP tellsHalt + (if s.fault.isSome then 1 else 0) =
        (measureReports measure f.tree).countP tellsHalt +
          (if f.session.fault.isSome then 1 else 0) ∧
      f.log.countP tellsFinish + (if s.stepper.progress = .finished then 1 else 0) =
        (measureReports measure f.tree).countP tellsFinish +
          (if f.session.stepper.progress = .finished then 1 else 0) := by
  obtain ⟨notes, hlog, hnotes⟩ := (Stepper.reported_step measure s.stepper).log
  have hhalts : notes.countP tellsHalt = 0 :=
    List.countP_eq_zero.mpr fun r hr => by simp [not_tellsHalt, hnotes r hr]
  have hfinishes : notes.countP tellsFinish = 0 :=
    List.countP_eq_zero.mpr fun r hr => by simp [not_tellsFinish, hnotes r hr]
  have effect := Stepper.effect_step measure s.stepper
  cases h with
  | pass still => simp [measureReports_treePicture]
  | @halt fault ready result =>
    rw [result] at effect
    simp only [measureReports_append, measureReports_treePicture, hlog, List.nil_append,
      List.countP_append, hhalts, hfinishes, ready.sound, ready.running, effect.of_error.1]
    simp [tellsHalt_haltRecord, tellsFinish_haltRecord]
  | @advance batch ready result =>
    rw [result] at effect
    obtain ⟨hhalt, hfinish⟩ := effect.countP_finishReport ready.running
    obtain ⟨hhalt', hfinish'⟩ := countP_batchReport (s.stepper.step measure).stepper batch
    simp only [measureReports_append, measureReports_treePicture, hlog, List.nil_append,
      List.countP_append, hhalts, hfinishes, hhalt, hfinish, hhalt', hfinish', ready.sound,
      ready.running]
    simp

/-! ## Runs -/

/-- The frames of a run. -/
def frames (measure : TextMeasure α) : Session α → List (Call α) → List (Frame α)
  | _, [] => []
  | s, c :: calls => s.call measure c :: (s.call measure c).session.frames measure calls

/-- What a run reports. -/
def reports (measure : TextMeasure α) (s : Session α) (calls : List (Call α)) : Log :=
  (s.frames measure calls).flatMap Frame.log

/-- What the measure reports in a run. -/
def reportsOfMeasure (measure : TextMeasure α) (s : Session α) (calls : List (Call α)) : Log :=
  measureReports measure ((s.frames measure calls).flatMap Frame.tree)

theorem countP_reports (measure : TextMeasure α) (s : Session α) (calls : List (Call α)) :
    (s.reports measure calls).countP tellsHalt + (if s.fault.isSome then 1 else 0) =
        (s.reportsOfMeasure measure calls).countP tellsHalt +
          (if (s.run measure calls).fault.isSome then 1 else 0) ∧
      (s.reports measure calls).countP tellsFinish +
          (if s.stepper.progress = .finished then 1 else 0) =
        (s.reportsOfMeasure measure calls).countP tellsFinish +
          (if (s.run measure calls).stepper.progress = .finished then 1 else 0) := by
  induction calls generalizing s with
  | nil => exact ⟨rfl, rfl⟩
  | cons c calls ih =>
    obtain ⟨hhalt, hfinish⟩ := (leaves_call measure s c).countP_log
    obtain ⟨ihhalt, ihfinish⟩ := ih (s.call measure c).session
    have hreports : s.reports measure (c :: calls) =
        (s.call measure c).log ++ (s.call measure c).session.reports measure calls :=
      List.flatMap_cons
    have hmeasure : s.reportsOfMeasure measure (c :: calls) =
        measureReports measure (s.call measure c).tree ++
          (s.call measure c).session.reportsOfMeasure measure calls := by
      rw [reportsOfMeasure, frames, List.flatMap_cons, measureReports_append]
      rfl
    rw [hreports, hmeasure, run]
    simp only [List.countP_append]
    omega

omit [Scalar α] in
/-- A measure that only warns has no share in the reports of an end. -/
theorem countP_measureReports (hwarns : ∀ text font, ∀ r ∈ (measure text font).log, r.level = .warn)
    (ops : List (DrawOp α)) :
    (measureReports measure ops).countP tellsHalt = 0 ∧
      (measureReports measure ops).countP tellsFinish = 0 := by
  have hlevel : ∀ r ∈ measureReports measure ops, r.level = .warn := by
    intro r hr
    obtain ⟨op, -, hop⟩ := List.mem_flatMap.mp hr
    cases op with
    | measureText text font => exact hwarns text font r hop
    | _ => simp at hop
  refine ⟨List.countP_eq_zero.mpr fun r hr => ?_, List.countP_eq_zero.mpr fun r hr => ?_⟩
  · simp [not_tellsHalt, hlevel r hr]
  · simp [not_tellsFinish, hlevel r hr]

/-! ## Faults -/

/-- **A fault stays.** -/
theorem fault_run {fault : Fault α} (h : s.fault = some fault) (calls : List (Call α)) :
    (s.run measure calls).fault = some fault := by
  refine run_induction (P := fun s => s.fault = some fault) (fun effect h => ?_) h calls
  cases effect with
  | pass still => exact h
  | halt done sound running result => simp [sound] at h
  | advance done sound running result => exact h

/-- The call after which a session has its fault: the next action had that fault, and the call
reports it. -/
theorem of_fault_call {fault : Fault α} {c : Call α} (sound : s.fault = none)
    (h : (s.call measure c).session.fault = some fault) :
    (s.stepper.step measure).result = .error fault ∧
      haltRecord fault ∈ (s.call measure c).log := by
  have leaves := leaves_call measure s c
  generalize s.call measure c = f at leaves h ⊢
  cases leaves with
  | pass still => simp [sound] at h
  | halt ready result =>
    obtain rfl := Option.some.inj h
    exact ⟨result, by simp⟩
  | advance ready result => simp [sound] at h

/-- **The fault of a session is the first one** that its replay had. -/
theorem exists_first_fault {fault : Fault α} {calls : List (Call α)} (sound : s.fault = none)
    (h : (s.run measure calls).fault = some fault) :
    ∃ before c after, calls = before ++ c :: after ∧ (s.run measure before).fault = none ∧
      ((s.run measure before).stepper.step measure).result = .error fault ∧
      haltRecord fault ∈ ((s.run measure before).call measure c).log := by
  induction calls generalizing s with
  | nil => simp [run, sound] at h
  | cons c calls ih =>
    rw [run] at h
    cases hc : (s.call measure c).session.fault with
    | none =>
      obtain ⟨before, c', after, rfl, hfault⟩ := ih hc h
      exact ⟨c :: before, c', after, rfl, hfault⟩
    | some fault' =>
      -- The session keeps the fault that this call has met.
      obtain rfl : fault' = fault := by simpa [fault_run hc calls] using h
      exact ⟨[], c, calls, rfl, sound, of_fault_call sound hc⟩

/-! ## Idle sessions -/

/-- **Nothing happens any more**: every further call leaves the session idle and as it is but for
the time of the last frame, draws the same on either surface, and reports nothing. -/
def Final (measure : TextMeasure α) (s : Session α) : Prop :=
  ∃ tree states, ∀ later c, ∃ last,
    (s.run measure later).call measure c = ⟨{ s with lastFrame := last }, tree, states, []⟩ ∧
      ((s.run measure later).call measure c).session.isIdle = true

omit [Scalar α] in
theorem isIdle_iff : s.isIdle = true ↔
    s.scheduler.active = [] ∧ (s.fault.isSome = true ∨ s.stepper.progress ≠ .running) := by
  simp [isIdle, Scheduler.isSettled]

theorem not_ready_of_isIdle (h : s.isIdle = true) (delta : α) : ¬ s.Ready delta := by
  intro ready
  rcases (isIdle_iff.mp h).2 with hfault | stopped
  · simp [ready.sound] at hfault
  · exact stopped ready.running

/-- What an idle session draws of the tree. -/
def settledPicture (s : Session α) : List (DrawOp α) :=
  [.fillStyle s.settings.trace.background, .fillRect Vec.zero s.viewport] ++
    s.scheduler.settled.flatMap (Command.picture s.scheduler.ink s.scheduler.lineWidth)

/-- A call of an idle session. -/
theorem call_of_isIdle (measure : TextMeasure α) (h : s.isIdle = true) (c : Call α) :
    s.call measure c =
      ⟨{ s with lastFrame := c.last s }, s.settledPicture, s.statesPicture, []⟩ := by
  have htick := Scheduler.tick_of_settled (isIdle_iff.mp h).1 (c.time s)
  have leaves := leaves_call measure s c
  generalize s.call measure c = f at leaves ⊢
  cases leaves with
  | pass still => rw [treePicture, htick, settledPicture]
  | halt ready result => exact absurd ready (not_ready_of_isIdle h _)
  | advance ready result => exact absurd ready (not_ready_of_isIdle h _)

/-- A run of an idle session only changes the time of the last frame. -/
theorem run_of_isIdle (measure : TextMeasure α) (h : s.isIdle = true) (calls : List (Call α)) :
    ∃ last, s.run measure calls = { s with lastFrame := last } := by
  induction calls generalizing s with
  | nil => exact ⟨s.lastFrame, rfl⟩
  | cons c calls ih =>
    rw [run, call_of_isIdle measure h]
    exact ih (s := { s with lastFrame := c.last s }) h

/-- **Idle is final.** -/
theorem final_of_isIdle (measure : TextMeasure α) (h : s.isIdle = true) : s.Final measure := by
  refine ⟨s.settledPicture, s.statesPicture, fun later c => ?_⟩
  obtain ⟨last, hrun⟩ := run_of_isIdle measure h later
  rw [hrun, call_of_isIdle measure (s := { s with lastFrame := last }) h]
  exact ⟨_, rfl, h⟩

/-! ## The beginning -/

theorem level_layOut {adjacency : Adjacency} {settings : Settings α} {viewport : Vec α}
    {seed : UInt64} {g : Graph α} {log : Log}
    (h : layOut adjacency settings viewport seed = .ok (g, log)) :
    ∀ r ∈ log, r.level = .debug ∨ r.level = .warn := by
  unfold layOut at h
  cases hg : (Graph.ofAdjacency adjacency : Except (Fault α) (Graph α)) with
  | error fault =>
    rw [hg] at h
    cases h
  | ok empty =>
    rw [hg] at h
    cases h
    intro r hr
    rcases List.mem_append.mp hr with hr | hr
    · exact Graph.level_relax _ _ r hr
    rcases List.mem_cons.mp hr with rfl | hr
    · exact Or.inl rfl
    · split at hr
      · simp at hr
      · rw [List.mem_singleton.mp hr]
        exact Or.inr rfl

/-- The beginning of a session reports no end. -/
theorem countP_start {source : Source} {settings : Settings α} {viewport : Vec α} {seed : UInt64}
    {log : Log} (h : start source settings viewport seed = .ok (s, log)) :
    log.countP tellsHalt = 0 ∧ log.countP tellsFinish = 0 := by
  unfold start at h
  cases hl : layOut source.adjacency settings viewport seed with
  | error fault =>
    rw [hl] at h
    cases h
  | ok laidOut =>
    have hlevel := level_layOut hl
    rw [hl] at h
    cases h
    have hhalt : laidOut.2.countP tellsHalt = 0 := List.countP_eq_zero.mpr fun r hr => by
      rcases hlevel r hr with hr | hr <;> simp [not_tellsHalt, hr]
    have hfinish : laidOut.2.countP tellsFinish = 0 := List.countP_eq_zero.mpr fun r hr => by
      rcases hlevel r hr with hr | hr <;> simp [not_tellsFinish, hr]
    rw [List.countP_append, List.countP_append, hhalt, hfinish]
    simp [tellsHalt, tellsFinish, LogRecord.info]

/-! ## Sessions -/

/-- **How a run ends**, of a session whose start has reported `log`. -/
structure Ends (measure : TextMeasure α) (s : Session α) (log : Log) (calls : List (Call α)) :
    Prop where
  /-- Once the session is idle, nothing happens any more. -/
  final : (s.run measure calls).isIdle = true → (s.run measure calls).Final measure
  /-- The halt of the replay is reported once if the session has a fault, and never otherwise, the
  reports of the measure apart. -/
  halts : (log ++ s.reports measure calls).countP tellsHalt =
    (s.reportsOfMeasure measure calls).countP tellsHalt +
      if (s.run measure calls).fault.isSome then 1 else 0
  /-- The fault is the first one of the replay, and is the one that is reported. -/
  first : ∀ fault, (s.run measure calls).fault = some fault →
    ∃ before c after, calls = before ++ c :: after ∧ (s.run measure before).fault = none ∧
      ((s.run measure before).stepper.step measure).result = .error fault ∧
      haltRecord fault ∈ ((s.run measure before).call measure c).log
  /-- The fault never changes. -/
  kept : ∀ fault, (s.run measure calls).fault = some fault →
    ∀ later, (s.run measure (calls ++ later)).fault = some fault
  /-- The finish of the replay is reported once if the replay finishes, and never otherwise, the
  reports of the measure apart. -/
  finishes : (log ++ s.reports measure calls).countP tellsFinish =
    (s.reportsOfMeasure measure calls).countP tellsFinish +
      if (s.run measure calls).stepper.progress = .finished then 1 else 0
  /-- A measure that only warns, as that of a canvas does, has no share in these reports. -/
  share : (∀ text font, ∀ r ∈ (measure text font).log, r.level = .warn) →
    (s.reportsOfMeasure measure calls).countP tellsHalt = 0 ∧
      (s.reportsOfMeasure measure calls).countP tellsFinish = 0

/-- **Every end is final and reported once**, in every run of a session. -/
theorem ends_run {source : Source} {settings : Settings α} {viewport : Vec α} {seed : UInt64}
    {log : Log} (h : start source settings viewport seed = .ok (s, log))
    (measure : TextMeasure α) (calls : List (Call α)) : s.Ends measure log calls := by
  obtain ⟨hstepper, -, sound, -⟩ := start_eq h
  have running : s.stepper.progress = .running := by rw [hstepper]; rfl
  obtain ⟨hhalt, hfinish⟩ := countP_start h
  obtain ⟨hhalts, hfinishes⟩ := countP_reports measure s calls
  simp only [sound, running, Option.isSome_none] at hhalts hfinishes
  refine ⟨final_of_isIdle measure, ?_, fun fault => exists_first_fault sound, ?_, ?_,
    fun hwarns => countP_measureReports hwarns _⟩
  · rw [List.countP_append, hhalt, Nat.zero_add, ← hhalts]
    simp
  · intro fault hfault later
    rw [run_append]
    exact fault_run hfault later
  · rw [List.countP_append, hfinish, Nat.zero_add, ← hfinishes]
    simp

/-- A trace that asks for more trees than there are, on a canvas that cannot measure: the first
label is shown, and the replay halts. -/
theorem ends_run_underflow :
    ∃ (s : Session Float) (log : Log),
      start ⟨⟨"a", [.shift, .reduce ⟨"S", 3⟩, .finish none]⟩, [[0]]⟩ .standard ⟨800.0, 600.0⟩ 17 =
          .ok (s, log) ∧
        let measure : TextMeasure Float := Canvas.measure fun _ => .error "no context"
        (∀ text font, ∀ r ∈ (measure text font).log, r.level = .warn) ∧
          s.Ends measure log [.tick 16.0, .frame 0.0, .frame 600.0, .tick 16.0, .frame 20.0] := by
  have targets : ∀ e ∈ Adjacency.transitions [[0]], e.2 < 1 := by decide
  obtain ⟨s, log, h⟩ := exists_start
    ⟨⟨"a", [.shift, .reduce ⟨"S", 3⟩, .finish none]⟩, [[0]]⟩ targets
    (Settings.standard : Settings Float) ⟨800.0, 600.0⟩ 17
  exact ⟨s, log, h, Canvas.level_measure _, ends_run h _ _⟩

end Session

end ParseReplay
