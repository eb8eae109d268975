import PrefixScript.Script

/-!
# Standard Output

Running a script on a standard output that may be broken.

What a script prints goes to a buffer in front of a device, and the buffer
passes it on when it sees fit. So it may be noticed in the middle of a script
that the device is broken, after any number of bytes, and then a statement that
prints fails and the script stops there. Or it may not be noticed before the
script is over and the buffer is flushed.

The buffer is flushed in any case, and before the answer of the script is looked
at. The flush fails if anything was handed to a broken device, whether that was
noticed or not, and its failure is reported in place of a fault of the script,
be it the fault of the very statement that could not print.

If asked to, and if neither has failed, the value of the script is printed
behind everything the script has printed itself, with a line feed behind it.

## Main definitions

* `Device`: A working or a broken device.
* `Device.buffer`: Standard output in front of a device.
* `Outcome.tried`: Whether a run has handed anything to its output.
* `Device.flush`, `Device.received`: Passing on what was handed over.
* `Delivery`: Whether all went well, and what the device received.
* `Delivery.ofTokens`, `Delivery.ofText`: Running tokens, or a text.
-/

namespace PrefixScript

/-- What is behind standard output. -/
inductive Device where
  /-- A device that takes everything. -/
  | working
  /-- A device that takes no byte and gives `failure` as its excuse. The buffer in front
      of it takes `room` bytes before that is noticed, and everything if there is no
      number. -/
  | broken (failure : String) (room : Option Nat)

namespace Device

/-- The excuse of a device without any space left. -/
def noSpace : String :=
  "No space left on device (os error 28)"

/-- A device without any space left, which is not noticed before the flush. -/
def full : Device :=
  .broken noSpace none

/-- Standard output as a script finds it: an empty buffer in front of the device. -/
def buffer (device : Device) : Sink :=
  match device with
  | .broken failure (some room) => .limited room failure
  | _ => .unlimited

/-- Pass on what was handed over. There is no failure without a byte to lose. -/
def flush (device : Device) (handed : Bool) : Except String Unit :=
  match device with
  | .working => .ok ()
  | .broken failure _ => if handed then .error failure else .ok ()

/-- What a device has of the bytes that were handed to it. -/
def received (device : Device) (bytes : ByteArray) : ByteArray :=
  match device with
  | .working => bytes
  | .broken _ _ => .empty

end Device

namespace Outcome

/-- Whether the output has refused something. -/
def refused (outcome : Outcome) : Bool :=
  match outcome.answer with
  | .error ⟨.outputFailed _, _⟩ => true
  | _ => false

/-- Whether at least one byte was handed to the output, which has then kept or refused
    it. -/
def tried (outcome : Outcome) : Bool :=
  outcome.session.output.kept.size ≠ 0 || outcome.refused

end Outcome

/-- What comes of running a script on standard output: the message of the first
    failure, if there was one, and what the device received. -/
structure Delivery where
  result : Except String Unit
  output : ByteArray

namespace Delivery

/-- The line that is printed for the value of a script: none without a value,
    or if it is not asked for. -/
def closingLine (autoPrint : Bool) (result : Option Value) : String :=
  match autoPrint, result with
  | true, some v => v.printed true
  | _, _ => ""

/-- Run tokens on standard output. The buffer is flushed whatever the run has come to, and
    a failure of the flush is the first to be told. -/
def ofTokens (device : Device) (tokens : List (Located Token)) (autoPrint : Bool) : Delivery :=
  let outcome := Outcome.ofTokens tokens device.buffer
  let printed := outcome.session.output.kept
  match device.flush outcome.tried, outcome.answer with
  | .error failure, _ => ⟨.error failure, device.received printed⟩
  | .ok (), .error fault => ⟨.error fault.message, device.received printed⟩
  | .ok (), .ok result =>
    -- A line is passed on when it ends, so writing it fails as a flush does.
    let closing := closingLine autoPrint result
    ⟨device.flush (closing ≠ ""), device.received (printed ++ closing.toUTF8)⟩

/-- Run a text on standard output. -/
def ofText (device : Device) (source : String) (autoPrint : Bool) : Delivery :=
  ofTokens device (Token.ofText source) autoPrint

end Delivery

end PrefixScript
