import OpLang.Log

/-! # Transcripts

A transcript keeps everything that a session let others see, in one order: log records, output, and
flushes together with the source of tokens as it was at that moment.
-/

namespace OpLang

/-- One thing that a session let others see. -/
inductive Entry (τ : Type) where
  | event (event : Event)
  | output (text : String)
  | flush (tokens : τ)

/-- A flush: how many bytes the sink had received by then, and what was left to read. -/
structure Flush (τ : Type) where
  received : Nat
  tokens : τ

namespace Transcript

variable {τ : Type}

/-- The output of a transcript. -/
def output (transcript : List (Entry τ)) : String :=
  String.join <| transcript.filterMap fun
    | .output text => some text
    | _ => none

/-- The log records of a transcript. -/
def events (transcript : List (Entry τ)) : List Event :=
  transcript.filterMap fun
    | .event event => some event
    | _ => none

/-- The flushes of a transcript, when some bytes have been received before it. -/
def flushesAfter (received : Nat) : List (Entry τ) → List (Flush τ)
  | [] => []
  | .event _ :: transcript => flushesAfter received transcript
  | .output text :: transcript => flushesAfter (received + text.utf8ByteSize) transcript
  | .flush tokens :: transcript => ⟨received, tokens⟩ :: flushesAfter received transcript

/-- The flushes of a transcript. -/
def flushes (transcript : List (Entry τ)) : List (Flush τ) := flushesAfter 0 transcript

end Transcript

end OpLang
