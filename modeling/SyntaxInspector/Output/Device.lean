import SyntaxInspector.Output.Sink

/-! # Devices that follow a script

A device takes the bytes it is given in as many calls as it likes.  How it answers the calls is
written down beforehand in a list of answers; behind the last one it takes everything.

* `Answer` is how a device answers a call, or several calls in a row;
* `deliver` offers bytes to a device until it has taken all of them or fails;
* `Device` is a device together with what it has taken, `Device.sink` writes to it, and
  `Device.limited` is one whose room may be limited. -/

namespace SyntaxInspector

/-- How a device answers calls. -/
inductive Answer where
  /-- One call is interrupted and made again. -/
  | interrupted
  /-- A call takes no bytes. -/
  | stalled
  /-- A call fails. -/
  | failed (e : IoError)
  /-- Each call takes at most `chunk` bytes, until `budget` bytes have been taken; `none` is no
  limit. -/
  | accepts (chunk budget : Option Nat)
  deriving DecidableEq, Repr

/-- The smaller of two limits; `none` is no limit. -/
def tighter : Option Nat → Option Nat → Option Nat
  | none, limit => limit
  | limit, none => limit
  | some m, some n => some (min m n)

/-- Offers bytes call by call.  The result is what the device took, the outcome, and the answers
that are left; `stalled` and `failed` end the offer. -/
def deliver : List Answer → List UInt8 → List UInt8 × Except IoError Unit × List Answer
  | answers, [] => ([], .ok (), answers)
  | [], bytes => (bytes, .ok (), [])
  | .interrupted :: answers, b :: bs => deliver answers (b :: bs)
  | .stalled :: answers, _ => ([], .error .writeZero, answers)
  | .failed e :: answers, _ => ([], .error e, answers)
  | .accepts chunk budget :: answers, b :: bs =>
    if budget = some 0 then deliver answers (b :: bs)
    else match tighter chunk budget with
      | none => (b :: bs, .ok (), .accepts chunk budget :: answers)
      | some 0 => ([], .error .writeZero, .accepts chunk budget :: answers)
      | some (k + 1) =>
        let call := b :: bs.take k
        let (taken, outcome, left) :=
          deliver (.accepts chunk (budget.map (· - call.length)) :: answers) (bs.drop k)
        (call ++ taken, outcome, left)
termination_by answers bytes => (answers.length, bytes.length)

/-- A device: its answers to come, how it answers a flush, the bytes it has taken, and how often it
was flushed. -/
structure Device where
  answers : List Answer := []
  flushError : Option IoError := none
  written : List UInt8 := []
  flushes : Nat := 0
  deriving DecidableEq, Repr

namespace Device

/-- The device after an offer of bytes, and the outcome. -/
def write (bytes : List UInt8) (d : Device) : Except IoError Unit × Device :=
  let (taken, outcome, answers) := deliver d.answers bytes
  (outcome, { d with answers, written := d.written ++ taken })

/-- The device after a flush, and the outcome. -/
def flush (d : Device) : Except IoError Unit × Device :=
  let outcome := match d.flushError with
    | none => .ok ()
    | some e => .error e
  (outcome, { d with flushes := d.flushes + 1 })

/-- The device as a place to write to. -/
def sink : Sink (StateM Device) where
  writeAll bytes := ExceptT.mk (write bytes)
  flush := ExceptT.mk flush

/-- A device with limited room: it interrupts some calls, then takes at most `chunk` bytes per call
and `budget` bytes in all, and then answers a call with `last`. -/
def limited (interrupts : Nat) (chunk budget : Option Nat) (last : Answer)
    (flushError : Option IoError) : Device :=
  { answers := List.replicate interrupts .interrupted ++ [.accepts chunk budget, last]
    flushError }

end Device
end SyntaxInspector
