import FaultDrill.Event

/-! # A log in a file

A sink appends lines to a file. What is written waits in a buffer until it is flushed, which is
after each line and when the sink is closed.
-/

namespace FaultDrill

structure LogSink where
  file : ByteArray
  buffer : String := ""

namespace LogSink

/-- Opened to append; a file that is missing is made. -/
def create (content : Option ByteArray) : LogSink := { file := content.getD .empty }

def flush (s : LogSink) : LogSink := { file := s.file ++ s.buffer.toUTF8 }

def writeLine (s : LogSink) (value : Json) : LogSink :=
  { s with buffer := EventLog.writeLine s.buffer value }.flush

def emit (s : LogSink) (event : Event) : LogSink := s.writeLine event.toJson

/-- The file that a sink leaves behind. -/
def close (s : LogSink) : ByteArray := s.flush.file

/-- The file after these events have been emitted through one sink that was closed after them. -/
def record (content : Option ByteArray) (events : List Event) : Option ByteArray :=
  some (events.foldl emit (create content)).close

end LogSink

namespace EventLog

def lineBreak : UInt8 := 0x0a

/-- The event that a line of a file writes. -/
def parse? (line : List UInt8) : Option Event := do
  Event.ofJson? (← Json.read? (← String.fromUTF8? line.toByteArray))

end EventLog

end FaultDrill
