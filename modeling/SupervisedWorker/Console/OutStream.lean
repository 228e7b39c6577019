import SupervisedWorker.Text.Bytes

/-!
# Output streams

A stream takes bytes until it is full. How many it takes at once, how many in all, and whether it
refuses to be flushed is a property of the stream. `OutStream.writeAll` repeats single writes until
everything is taken, so it fails exactly when the stream fills up or takes nothing at all.
-/

namespace SupervisedWorker

/-- Why a stream did not do what it was asked to. -/
inductive StreamError
  /-- The stream takes no more bytes. -/
  | closed
  /-- The stream took nothing of what was left to write. -/
  | nothingTaken
  /-- The stream refused to be flushed. -/
  | flushRefused
deriving DecidableEq, Repr, Inhabited

/-- The text of a stream error. -/
def StreamError.message : StreamError → String
  | .closed => "stream closed"
  | .nothingTaken => "failed to write whole buffer"
  | .flushRefused => "flush refused"

/-- A stream of output and what it has received. -/
structure OutStream where
  /-- The most bytes that one write takes. -/
  chunk : Option Nat
  /-- The most bytes that the stream takes in all. -/
  limit : Option Nat
  /-- Whether flushing fails. -/
  flushFails : Bool
  /-- The bytes received, the oldest first. -/
  received : List UInt8
  /-- How often a flush has reached the stream. -/
  flushes : Nat
deriving DecidableEq, Repr, Inhabited

namespace OutStream

/-- A stream that takes everything. -/
def unlimited : OutStream := ⟨none, none, false, [], 0⟩

/-- A number that must not exceed an optional bound. -/
def cap (bound : Option Nat) (n : Nat) : Nat :=
  match bound with
  | some b => min b n
  | none => n

/-- How many more bytes fit, if there is a limit. -/
def room (s : OutStream) : Option Nat := s.limit.map (· - s.received.length)

/-- One write: how many of the bytes the stream took. -/
def write (s : OutStream) (bytes : List UInt8) : Except StreamError Nat × OutStream :=
  if bytes.isEmpty then (.ok 0, s)
  else if s.room = some 0 then (.error .closed, s)
  else
    let taken := cap s.chunk (cap s.room bytes.length)
    (.ok taken, { s with received := s.received ++ bytes.take taken })

/-- Writes until all bytes are taken or a write fails; no bytes need no write. -/
def writeAll (s : OutStream) : List UInt8 → Except StreamError Unit × OutStream
  | [] => (.ok (), s)
  | byte :: rest =>
    match s.write (byte :: rest) with
    | (.error e, s) => (.error e, s)
    | (.ok 0, s) => (.error .nothingTaken, s)
    | (.ok (n + 1), s) => s.writeAll (rest.drop n)
termination_by bytes => bytes.length
decreasing_by
  simp only [List.length_drop, List.length_cons]
  omega

/-- One line: its text, then a line break, which is not written if the text fails. -/
def writeLine (s : OutStream) (line : String) : Except StreamError Unit × OutStream :=
  match s.writeAll (Text.utf8 line) with
  | (.error e, s) => (.error e, s)
  | (.ok (), s) => s.writeAll (Text.utf8 "\n")

/-- A flush reaches the stream whether it is refused or not. -/
def flush (s : OutStream) : Except StreamError Unit × OutStream :=
  (if s.flushFails then .error .flushRefused else .ok (), { s with flushes := s.flushes + 1 })

end OutStream

end SupervisedWorker
