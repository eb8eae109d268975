/-!
# Sinks

Where the output of a script goes.

A sink keeps the bytes that are written to it, in order, and may have room for
only so many. What still fits of a text is kept even when the rest is lost, so
the kept bytes are always a prefix of what was written. A sink that lost
something has no room left and refuses everything from then on.

A sink is described by the room it has left and not by a limit on what it
keeps. The two say the same, and in this form every sink is a possible one.

## Main definitions

* `Sink`: The kept bytes, the room left, and the excuse for a refusal.
* `Sink.accepts`: Whether there is room for a text.
* `Sink.write`: The sink after a text was written to it.

## Theorems

* `kept_write_of_unlimited`: A sink without limit keeps all of a text.
* `kept_write_of_limited`: A limited sink keeps as much of a text as fits.
-/

namespace PrefixScript

/-- A destination for output. `room` is how many more bytes it keeps, without
    limit if there is no number, and `failure` the text of the error when a
    write does not fit. -/
structure Sink where
  kept : ByteArray
  room : Option Nat
  failure : String

namespace Sink

/-- The excuse of a sink that gives no other. -/
def defaultFailure : String :=
  "failed to write whole buffer"

/-- An empty sink that keeps everything. -/
def unlimited : Sink :=
  ⟨.empty, none, defaultFailure⟩

/-- An empty sink that keeps `limit` bytes. -/
def limited (limit : Nat) (failure : String) : Sink :=
  ⟨.empty, some limit, failure⟩

/-- Whether there is room for the whole of a text. -/
def accepts (sink : Sink) (text : String) : Bool :=
  match sink.room with
  | none => true
  | some room => text.utf8ByteSize ≤ room

/-- The sink after a text was written to it, as far as it fits. -/
def write (sink : Sink) (text : String) : Sink :=
  match sink.room with
  | none => { sink with kept := sink.kept ++ text.toUTF8 }
  | some room =>
    { sink with
      kept := sink.kept ++ text.toUTF8.extract 0 room
      room := some (room - text.utf8ByteSize) }

theorem kept_write_of_unlimited (sink : Sink) (text : String) (h : sink.room = none) :
    (sink.write text).kept = sink.kept ++ text.toUTF8 := by
  simp only [write, h]

theorem kept_write_of_limited (sink : Sink) (text : String) (room : Nat)
    (h : sink.room = some room) :
    (sink.write text).kept = sink.kept ++ text.toUTF8.extract 0 room := by
  simp only [write, h]

end Sink

end PrefixScript
