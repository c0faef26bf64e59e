/-! # Sinks that may fail

The output of a session goes to a sink that takes a bounded number of bytes and lets a bounded
number of flushes succeed, or knows no bounds.
-/

namespace OpLang

/-- Why a sink refused. -/
inductive SinkFault where
  | full
  | flushFailed
deriving DecidableEq, Repr, Inhabited

namespace SinkFault

/-- The wording of a refusal. -/
def text : SinkFault → String
  | full => "sink full"
  | flushFailed => "flush failed"

end SinkFault

/-- How many bytes a sink still takes and how many flushes still succeed; `none` is no limit. -/
structure Sink where
  room : Option Nat
  flushes : Option Nat
deriving DecidableEq, Repr, Inhabited

/-- The longest beginning of a text that fits into so many bytes. -/
def fitting (room : Nat) : List Char → List Char
  | [] => []
  | char :: chars =>
    if char.utf8Size ≤ room then char :: fitting (room - char.utf8Size) chars else []

namespace Sink

/-- A sink without limits. -/
def unlimited : Sink := ⟨none, none⟩

/-- Write a text: the part of it that was taken, the refusal if that is not all of it, and the sink
afterwards. -/
def write (sink : Sink) (text : String) : String × Option SinkFault × Sink :=
  match sink.room with
  | none => (text, none, sink)
  | some room =>
    if text.utf8ByteSize ≤ room then
      (text, none, { sink with room := some (room - text.utf8ByteSize) })
    else (String.ofList (fitting room text.toList), some .full, { sink with room := some 0 })

/-- Flush what was written. -/
def flush (sink : Sink) : Option SinkFault × Sink :=
  match sink.flushes with
  | none => (none, sink)
  | some 0 => (some .flushFailed, sink)
  | some (flushes + 1) => (none, { sink with flushes := some flushes })

end Sink

end OpLang
