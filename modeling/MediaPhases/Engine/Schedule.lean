import MediaPhases.Outcome.Batch

/-!
# Schedules of batches

The files of a batch are started in order, at most a given number at a time.  Files in flight may
finish in any order; their results come out in the order of the files.  When a file fails and
failures stop the batch, files that have not been started are passed over.  A schedule is a
sequence of events, each of which is possible in the state that the ones before it have led to.
-/

namespace MediaPhases

/-- A file in flight. -/
inductive Flight where
  | running
  /-- The file is finished; without a result, it was passed over. -/
  | landed (result : Option FileResult)
deriving DecidableEq

/-- The state of a batch. -/
structure Schedule where
  /-- The files that have not been looked at. -/
  waiting : List String
  /-- The files in flight and those that wait for an earlier one to come out, in order. -/
  window : List (String × Flight) := []
  /-- The files that have come out, in order. -/
  emitted : List (String × Option FileResult) := []
  /-- Whether a failure has stopped the batch. -/
  isHalted : Bool := false
deriving DecidableEq

/-- What happens in a batch. -/
inductive ScheduleEvent where
  /-- The next file is started, or passed over if the batch has been stopped. -/
  | start
  /-- The file at a position of the window finishes. -/
  | finish (position : Nat) (result : FileResult)
  /-- The first file of the window comes out. -/
  | emit
deriving DecidableEq

namespace Schedule

/-- The state before a batch. -/
def initial (paths : List String) : Schedule where
  waiting := paths

/-- The window of a number of workers, at least one. -/
def windowSize (workers : Nat) : Nat :=
  max workers 1

/-- The state after an event, if the event is possible. -/
def step (stopsOnFailure : Bool) (workers : Nat) (s : Schedule) :
    ScheduleEvent → Option Schedule
  | .start =>
    match s.waiting with
    | [] => none
    | path :: rest =>
      if s.window.length < windowSize workers then
        some { s with
          waiting := rest
          window := s.window ++ [(path, if s.isHalted then .landed none else .running)] }
      else none
  | .finish position result =>
    match s.window[position]? with
    | some (path, .running) =>
      some { s with
        window := s.window.set position (path, .landed (some result))
        isHalted := s.isHalted || (stopsOnFailure && !result.success) }
    | _ => none
  | .emit =>
    match s.window with
    | (path, .landed result) :: rest =>
      some { s with window := rest, emitted := s.emitted ++ [(path, result)] }
    | _ => none

/-- The state after events, if each of them is possible in its turn. -/
def run (stopsOnFailure : Bool) (workers : Nat) : List ScheduleEvent → Schedule → Option Schedule
  | [], s => some s
  | event :: rest, s => (s.step stopsOnFailure workers event).bind (run stopsOnFailure workers rest)

/-- Whether every file has come out. -/
def isComplete (s : Schedule) : Bool :=
  s.waiting.isEmpty && s.window.isEmpty

/-- The result of a complete batch. -/
def result (s : Schedule) : BatchResult where
  results := s.emitted.filterMap (·.2)
  notStarted := (s.emitted.filter (·.2.isNone)).map (·.1)

/-- What remains to be done: three events for a file that has not been started, two for one that
is running and one for one that has landed. -/
def remaining (s : Schedule) : Nat :=
  s.window.foldr
    (fun f total => total + match f.2 with
      | .running => 2
      | .landed _ => 1)
    (3 * s.waiting.length)

end Schedule

end MediaPhases
