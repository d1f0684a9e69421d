import ParseReplay.Proofs.Replay.Calls
import ParseReplay.Proofs.Scalar.Exact

/-!
# Faults leave the replay as it was

Each operation looks at what it needs before it moves anything. A shift without input, a reduction
of more trees than there are and an end at the wrong depth give back the stepper that they were
given, and measure nothing. A step that fails has pulled its action by then, and halts the replay;
the stack, the input and the place of the next label are those of before. A replay that has stopped,
halted or finished, is left alone by all further calls.

## Main definitions

* `Stepper.outcomes`: what a row of calls gives

## Main results

* `shift_of_error`, `reduce_of_error`, `finish_of_error`: a failing operation does nothing
* `applyNext_of_error`: a failing action moves the cursor at most
* `outcomes_of_stopped`: a stopped replay stays as it is, and draws nothing
* `unchanged_by_faults`: all of this together
-/

namespace ParseReplay

namespace Stepper

/-! ## Failing operations -/

variable {α : Type} {s : Stepper α} {fault : Fault α}

/-- An end that fails does nothing. -/
theorem finish_of_error (h : s.finish.result = .error fault) :
    s.finish = ⟨s, .error fault, [], []⟩ := by
  rw [finish] at h ⊢
  by_cases hdepth : s.stack.length = 1
  · rw [if_pos hdepth] at h
    cases h
  · rw [if_neg hdepth] at h ⊢
    rw [← h]

theorem close_of_error {report : LogRecord} (h : (s.close report).result = .error fault) :
    s.close report = ⟨s, .error fault, [], [report]⟩ := by
  have hfinish : s.finish.result = .error fault := by
    rw [close] at h
    cases hresult : s.finish.result with
    | ok _ => simp [hresult, Except.map] at h
    | error fault' => simpa [hresult, Except.map] using h
  rw [close, finish_of_error hfinish]
  rfl

variable [Scalar α] {measure : TextMeasure α}

/-- A shift that fails does nothing. -/
theorem shift_of_error (h : (s.shift measure).result = .error fault) :
    s.shift measure = ⟨s, .error fault, [], []⟩ := by
  rw [shift] at h ⊢
  cases hinput : s.input with
  | nil =>
    rw [hinput] at h
    rw [← h]
  | cons x rest =>
    rw [hinput] at h
    cases h

/-- A reduction that fails does nothing. -/
theorem reduce_of_error {symbol : String} {size : ℕ}
    (h : (s.reduce measure symbol size).result = .error fault) :
    s.reduce measure symbol size = ⟨s, .error fault, [], []⟩ := by
  rw [reduce] at h ⊢
  by_cases hshort : s.stack.length < size
  · rw [if_pos hshort] at h ⊢
    rw [← h]
  · rw [if_neg hshort] at h
    cases h

/-- A report adds no fault: what fails with it has failed without. -/
theorem result_of_announce_error {report : ParseTree α → LogRecord} {o : Outcome α Unit}
    (h : (announce report o).result = .error fault) : o.result = .error fault := by
  rw [announce] at h
  split at h
  · cases h
  · cases h
  · next fault' heq => exact heq.trans (congrArg Except.error (Except.error.inj h))

theorem announce_of_error {report : ParseTree α → LogRecord} {o : Outcome α Unit}
    (ho : o = ⟨s, .error fault, [], []⟩) : announce report o = ⟨s, .error fault, [], []⟩ := by
  rw [ho, announce]

/-- **A failing action** is pulled, if there was one, and does nothing else to the stepper. -/
theorem applyNext_of_error (h : (s.applyNext measure).result = .error fault) :
    ∃ cursor log, (cursor = s.cursor ∨ ∃ action, s.cursor.next? = some (action, cursor)) ∧
      s.applyNext measure = ⟨{ s with cursor }, .error fault, [], log⟩ := by
  rw [applyNext] at h ⊢
  cases next : s.cursor.next? with
  | none =>
    rw [next] at h
    exact ⟨s.cursor, _, Or.inl rfl, close_of_error h⟩
  | some pulled =>
    obtain ⟨action, c⟩ := pulled
    rw [next] at h
    -- The cursor has moved by now; what fails behind it gives back the stepper that it was given.
    refine ⟨c, ?_⟩
    cases action with
    | shift =>
      refine ⟨[], Or.inr ⟨_, rfl⟩, ?_⟩
      exact announce_of_error (shift_of_error (result_of_announce_error h))
    | reduce r =>
      refine ⟨[], Or.inr ⟨_, rfl⟩, ?_⟩
      exact announce_of_error (reduce_of_error (result_of_announce_error h))
    | finish result => exact ⟨_, Or.inr ⟨_, rfl⟩, close_of_error h⟩

/-- A failing step halts the replay, and does nothing else to it but pull an action. -/
theorem step_of_error (h : (s.step measure).result = .error fault) :
    ∃ cursor log, (cursor = s.cursor ∨ ∃ action, s.cursor.next? = some (action, cursor)) ∧
      s.step measure = ⟨{ s with cursor, progress := .halted }, .error fault, [], log⟩ := by
  by_cases running : s.progress = .running
  swap
  · -- A replay that has stopped has no faults.
    rw [step_of_stopped measure running] at h
    cases h
  rw [step, if_pos running] at h ⊢
  cases hresult : (s.applyNext measure).result with
  | ok batch =>
    simp only [hresult] at h
    cases h
  | error fault' =>
    simp only [hresult] at h
    obtain rfl := Except.error.inj h
    obtain ⟨cursor, log, hcursor, happly⟩ := applyNext_of_error hresult
    refine ⟨cursor, log, hcursor, ?_⟩
    rw [happly]

/-! ## Calls of a replay that has stopped -/

/-- What a row of calls gives, each with a measure of its own. -/
def outcomes : Stepper α → List (TextMeasure α) → List (Outcome α (List (Command α)))
  | _, [] => []
  | s, measure :: measures => s.step measure :: (s.step measure).stepper.outcomes measures

/-- **A replay that has stopped** is left as it is by all further calls, and draws nothing. -/
theorem outcomes_of_stopped (h : s.progress ≠ .running) (measures : List (TextMeasure α)) :
    s.outcomes measures = measures.map fun _ => ⟨s, .ok [], [], []⟩ := by
  induction measures with
  | nil => rfl
  | cons measure measures ih => rw [outcomes, step_of_stopped measure h, ih, List.map_cons]

/-- **Faults change nothing but the state.** For every stepper, in whatever state of a replay:

* A step that fails halts it. The stack with all its trees, the input, the number of symbols shifted
  and the place of the next label are those of before, nothing has been measured, and the failing
  action is the only one that has been pulled. All further calls do nothing.
* If it has halted or finished, all further calls do nothing, whatever actions and input are left.
* A shift or a reduction that fails when it is called by itself leaves the stepper as it is. -/
theorem unchanged_by_faults (s : Stepper α) :
    (∀ measure fault, (s.step measure).result = .error fault →
      let s' := (s.step measure).stepper
      s' = { s with cursor := s'.cursor, progress := .halted } ∧
        (s'.cursor = s.cursor ∨ ∃ action, s.cursor.next? = some (action, s'.cursor)) ∧
        (s.step measure).ops = [] ∧
        ∀ measures, s'.outcomes measures = measures.map fun _ => ⟨s', .ok [], [], []⟩) ∧
    (s.progress = .halted ∨ s.progress = .finished →
      ∀ measures, s.outcomes measures = measures.map fun _ => ⟨s, .ok [], [], []⟩) ∧
    (∀ measure fault, (s.shift measure).result = .error fault →
      s.shift measure = ⟨s, .error fault, [], []⟩) ∧
    ∀ measure symbol size fault, (s.reduce measure symbol size).result = .error fault →
      s.reduce measure symbol size = ⟨s, .error fault, [], []⟩ := by
  refine ⟨fun measure fault h => ?_, fun hstopped => ?_, fun _ _ => shift_of_error,
    fun _ _ _ _ => reduce_of_error⟩
  · obtain ⟨cursor, log, hcursor, hstep⟩ := step_of_error h
    rw [hstep]
    exact ⟨rfl, hcursor, rfl, outcomes_of_stopped (by simp)⟩
  · apply outcomes_of_stopped
    rcases hstopped with h | h <;> simp [h]

/-- A reduction of three trees where there is one, with a symbol and an action left. It halts the
replay and the next calls do nothing; called by itself it does nothing either, nor does a shift at
the end of the input. -/
theorem unchanged_by_faults_underflow :
    letI : Elementary ℝ := .real (fun _ => "") fun _ _ => ""
    let measure : TextMeasure ℝ := fun _ _ => ⟨20, []⟩
    let s := (ofTrace ⟨"ab", [.shift, .reduce ⟨"S", 3⟩, .shift]⟩ .standard).after measure 1
    let s' := (s.step measure).stepper
    let t : Stepper ℝ := ofTrace ⟨"", []⟩ .standard
    (s.step measure).result = .error (.stackUnderflow 3 1) ∧
      s' = { s with cursor := s'.cursor, progress := .halted } ∧
      s'.outcomes [measure, measure] = [⟨s', .ok [], [], []⟩, ⟨s', .ok [], [], []⟩] ∧
      s.reduce measure "S" 3 = ⟨s, .error (.stackUnderflow 3 1), [], []⟩ ∧
      t.shift measure = ⟨t, .error (.exhaustedInput 0), [], []⟩ := by
  let _ : Elementary ℝ := .real (fun _ => "") fun _ _ => ""
  intro measure s s' t
  obtain ⟨hstep, -, -, hreduce⟩ := unchanged_by_faults s
  obtain ⟨-, hstopped, -, -⟩ := unchanged_by_faults s'
  obtain ⟨-, -, hshift, -⟩ := unchanged_by_faults t
  have hresult : (s.step measure).result = .error (.stackUnderflow 3 1) := rfl
  exact ⟨hresult, (hstep measure _ hresult).1, hstopped (Or.inl rfl) [measure, measure],
    hreduce measure "S" 3 _ rfl, hshift measure _ rfl⟩

end Stepper

end ParseReplay
