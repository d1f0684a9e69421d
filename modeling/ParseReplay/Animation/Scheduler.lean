import ParseReplay.Animation.Command
import ParseReplay.Fault

/-!
# Batches of animations

Commands come in batches. A batch is animated as a whole, and when all of it is complete it joins
the commands that have settled, which are drawn from then on as they are. A new batch waits for
that.

## Main definitions

* `Scheduler`, `Scheduler.isSettled`: the settled commands and those in flight
* `Scheduler.begin`: a new batch
* `Scheduler.tick`: the passing of time, with the drawing of all commands
-/

namespace ParseReplay

/-- The commands that have settled, those in flight, and the look of all of them. -/
structure Scheduler (α : Type) where
  active : List (Command α)
  settled : List (Command α)
  ink : String
  lineWidth : α
deriving DecidableEq

namespace Scheduler

variable {α : Type} [Scalar α]

/-- A scheduler without commands. -/
def empty (ink : String) (lineWidth : α) : Scheduler α := ⟨[], [], ink, lineWidth⟩

/-- Nothing is in flight. -/
def isSettled (s : Scheduler α) : Bool := s.active.isEmpty

/-- Start a batch, unless one is in flight; that one goes on. -/
def begin (s : Scheduler α) (batch : List (Command α)) :
    Except (Failure (Scheduler α) α) (Scheduler α) :=
  if s.isSettled then .ok { s with active := batch }
  else .error ⟨.batchInFlight s.active.length, s⟩

/-- What a tick leaves: the scheduler, whether all is done, and the drawing. -/
structure Tick (α : Type) where
  scheduler : Scheduler α
  done : Bool
  picture : List (DrawOp α)

/-- Let time pass for the commands in flight, and draw settled and active commands. A batch that is
complete settles. -/
def tick (delta : α) (s : Scheduler α) : Tick α :=
  let active := s.active.map (Command.advance delta)
  let done := active.all Command.isComplete
  { scheduler :=
      if done then { s with settled := s.settled ++ active, active := [] }
      else { s with active := active }
    done := done
    picture := (s.settled ++ active).flatMap (Command.picture s.ink s.lineWidth) }

end Scheduler

end ParseReplay
