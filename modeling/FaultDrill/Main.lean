import FaultDrill.Bytes.Hex
import FaultDrill.CommandLine
import FaultDrill.LoggedRehearsal
import Std.Time.DateTime.Timestamp

/-! # The program

Reads the arguments and the configuration, plays a rehearsal by the clocks of the host,
and prints what it came to.
-/

namespace FaultDrill.Program

def contentOf? (path : String) : IO (Option ByteArray) := do
  try
    some <$> IO.FS.readBinFile path
  catch _ => pure none

/-- The files that the arguments name. -/
def namedFiles (args : List String) : IO (String → Option ByteArray) := do
  match CommandLine.read args with
  | .ok ⟨some path, _⟩ =>
    let content ← contentOf? path
    pure fun name => if name = path then content else none
  | _ => pure fun _ => none

/-- A random identifier of version four. -/
def freshId : IO String := do
  let random ← IO.getRandomBytes 16
  let versioned := random.set! 6 ((random.get! 6 &&& 0x0f) ||| 0x40)
  let digits := (Hex.encode (versioned.set! 8 ((versioned.get! 8 &&& 0x3f) ||| 0x80))).toList
  let part (start size : Nat) := String.ofList ((digits.drop start).take size)
  pure ("-".intercalate [part 0 8, part 8 4, part 12 4, part 16 4, part 20 12])

/-- Open a file to append to it, and close it. -/
def append (path : Option String) (bytes : ByteArray) : IO Unit := do
  if let some path := path then
    let handle ← IO.FS.Handle.mk path .append
    handle.write bytes

/-- Append to the file what the sink has of it, and go on with an empty sink. -/
def store (jsonLog : Option String) (x : LoggedRehearsal) : IO LoggedRehearsal := do
  let bytes := x.sink.close
  unless bytes.isEmpty do
    append jsonLog bytes
  pure { x with sink := .create none }

/-- Tell what has happened until the rehearsal has come to this. -/
def tell (jsonLog : Option String) (next : Rehearsal) (x : LoggedRehearsal) :
    IO LoggedRehearsal := do
  if jsonLog.isNone then
    for event in x.news next do
      IO.eprintln ((if event.isWarning then "WARN " else "INFO ") ++ event.text)
  store jsonLog (x.advance next)

/-- Bring the clocks of the rehearsal up to those of the host. -/
def catchUp (start : Nat) (x : Session Rehearsal Rehearsal.Part) :
    IO (Session Rehearsal Rehearsal.Part) := do
  let elapsed := (← IO.monoNanosNow) - start
  let clock := x.state.world.clock
  let behind := (Duration.ofNanos? (elapsed - clock.wall.nanos)).getD .zero
  pure (Rehearsal.schedule.passTime (elapsed / 1000000 - clock.timer) behind x)

partial def play (jsonLog : Option String) (start : Nat) (x : LoggedRehearsal)
    (session : Session Rehearsal Rehearsal.Part) :
    IO (Except RehearsalFailure RehearsalSummary × LoggedRehearsal) := do
  let session ← catchUp start session
  match Rehearsal.schedule.turn? session with
  | some session => play jsonLog start (← tell jsonLog session.state x) session
  | none =>
    match session.state.result? with
    | some result => pure (result, ← tell jsonLog session.state x)
    | none =>
      IO.sleep 1
      play jsonLog start x session

def rehearse (config : Config) (options : RehearsalOptions) (jsonLog : Option String) :
    IO CommandLine.Exit := do
  let started ← Std.Time.Timestamp.now
  try
    append jsonLog .empty
  catch e =>
    return CommandLine.failed (CommandLine.logUnopened (jsonLog.getD "") ++ [toString e])
  let x : LoggedRehearsal :=
    .start config options (← freshId) (.ofInt started.toSecondsSinceUnixEpoch.val) none
  let (result, x) ← play jsonLog (← IO.monoNanosNow) x x.rehearsal.session
  if let .ok summary := result then
    for line in summary.lines options.name do
      IO.println line
    IO.println (RehearsalSummary.runLine x.id)
    IO.println summary.resultLine
  let _ ← store jsonLog (x.finish result)
  pure (CommandLine.rehearsed options (x.verdict result))

def finish (exit : CommandLine.Exit) : IO UInt32 := do
  IO.print exit.output
  IO.eprint (CommandLine.failureText exit.failures)
  pure (.ofNat exit.code)

end FaultDrill.Program

def main (args : List String) : IO UInt32 := do
  let files ← FaultDrill.Program.namedFiles args
  match FaultDrill.CommandLine.task files args with
  | .done exit => FaultDrill.Program.finish exit
  | .rehearse config options jsonLog =>
    FaultDrill.Program.finish (← FaultDrill.Program.rehearse config options jsonLog)
