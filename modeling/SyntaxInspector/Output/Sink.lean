import SyntaxInspector.Output.IoError
import SyntaxInspector.Text.Utf8

/-! # Writing text

A text is written with a line break at its end, its own or an added one.

* `Sink` is where bytes can be written to, `writeText` writes a text to it;
* `forgiveBrokenPipe` is what standard output makes of the outcome: if the reader is gone, nothing
  went wrong. -/

namespace SyntaxInspector

variable {m : Type → Type} [Monad m]

/-- Where bytes can be written to: all bytes of a sequence in turn, and then a flush. -/
structure Sink (m : Type → Type) where
  writeAll : List UInt8 → ExceptT IoError m Unit
  flush : ExceptT IoError m Unit

/-- The text ends with a line break. -/
def endsWithNewline (text : String) : Bool := text.toList.getLast? == some '\n'

/-- Writes a text, adds a line break if the text does not end with one, and flushes. -/
def writeText (sink : Sink m) (text : String) : ExceptT IoError m Unit := do
  sink.writeAll (Text.encode text)
  unless endsWithNewline text do sink.writeAll (Text.encode "\n")
  sink.flush

/-- A broken pipe is no failure. -/
def forgiveBrokenPipe (outcome : Except IoError Unit) : Except IoError Unit :=
  match outcome with
  | .ok () => .ok ()
  | .error e => if e.isBrokenPipe then .ok () else .error e

/-- Writes a text to standard output. -/
def writeStandard (sink : Sink m) (text : String) : ExceptT IoError m Unit :=
  ExceptT.mk (forgiveBrokenPipe <$> (writeText sink text).run)

end SyntaxInspector
