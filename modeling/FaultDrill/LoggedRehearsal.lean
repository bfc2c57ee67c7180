import FaultDrill.Rehearsal
import FaultDrill.Sink

/-! # Rehearsals with a log

A run plays a rehearsal and appends what happens in it to a log of JSON: a line for each event as
it is logged, and the record as the last line if the rehearsal ends well. Then the run returns
whether it has passed.
-/

namespace FaultDrill

structure LoggedRehearsal where
  rehearsal : Rehearsal
  /-- What the run is identified by. -/
  id : String
  /-- When it started, in seconds from the start of 1970. -/
  started : Int64
  sink : LogSink
  /-- What the run has returned. -/
  returned : Option (Except RehearsalFailure Bool) := none

namespace LoggedRehearsal

/-- A run that appends to a file with this content. -/
def start (config : Config) (options : RehearsalOptions) (id : String) (started : Int64)
    (content : Option ByteArray) : LoggedRehearsal :=
  { rehearsal := .start config options, id, started, sink := .create content }

/-- The events that are logged until the rehearsal has come to this. -/
def news (next : Rehearsal) (x : LoggedRehearsal) : List Event :=
  next.world.log.drop x.rehearsal.world.log.length

/-- The rehearsal has come to this, and what it has logged is appended. -/
def advance (next : Rehearsal) (x : LoggedRehearsal) : LoggedRehearsal :=
  { x with rehearsal := next, sink := (x.news next).foldl .emit x.sink }

def record (summary : RehearsalSummary) (x : LoggedRehearsal) : DrillRecord :=
  summary.record x.id x.rehearsal.options.name x.started.toInt x.rehearsal.world.clock.wall

/-- What the run returns when its rehearsal has come to this. -/
def verdict (result : Except RehearsalFailure RehearsalSummary) (x : LoggedRehearsal) :
    Except RehearsalFailure Bool :=
  result.map fun summary => (x.record summary).passed

/-- The run returns. If its rehearsal has ended well, the record is appended before. -/
def finish (result : Except RehearsalFailure RehearsalSummary) (x : LoggedRehearsal) :
    LoggedRehearsal :=
  { x with
    sink := match result with
      | .ok summary => x.sink.writeLine (x.record summary).toJson
      | .error _ => x.sink
    returned := some (x.verdict result) }

inductive Move
  | rehearse (move : Rehearsal.Move)
  | finish

/-- What one move leads to; none if it is not possible, and none once the run has returned. -/
def move? (x : LoggedRehearsal) (m : Move) : Option LoggedRehearsal :=
  if x.returned.isSome then none
  else match m with
    | .rehearse m => (x.rehearsal.move? m).map x.advance
    | .finish => x.rehearsal.result?.map x.finish

/-- What any sequence of moves leads to. -/
inductive Reachable (start : LoggedRehearsal) : LoggedRehearsal → Prop
  | refl : Reachable start start
  | move {x x' : LoggedRehearsal} (m : Move) : Reachable start x → x.move? m = some x' →
    Reachable start x'

end LoggedRehearsal

end FaultDrill
