import OpLang.Source.Basic
import OpLang.Text.Utf8

/-! # Reading characters line by line

A reader is asked for bytes only when every character of the last line has been handed out, so
whoever types the input is never asked for a line too early. A line runs to its newline, to a
momentary end of the input or to a failure. A failure loses the unfinished line; after it, and after
a line without a byte, nothing is read any more.
-/

namespace OpLang

/-- One answer of the reader of bytes. No bytes are a momentary end of the input. -/
inductive Fill where
  | bytes (chunk : List UInt8)
  | interrupted
  | failed (message : String)
deriving DecidableEq, Repr

namespace Fill

/-- The bytes that an answer delivers. -/
def contents : Fill → List UInt8
  | bytes chunk => chunk
  | interrupted => []
  | failed _ => []

/-- How many bytes a series of answers delivers. -/
def total (script : List Fill) : Nat := (script.map (·.contents.length)).foldr (· + ·) 0

@[simp] theorem total_nil : total [] = 0 := rfl

@[simp] theorem total_cons (fill : Fill) (script : List Fill) :
    total (fill :: script) = fill.contents.length + total script := rfl

end Fill

/-- The byte that ends a line. -/
def newline : UInt8 := 0x0A

/-- What came of reading one line: the bytes taken, the failure that cut it short, and what is left
of the bytes already delivered and of the answers to come. -/
structure LineRead where
  bytes : List UInt8
  failure? : Option String
  chunk : List UInt8
  script : List Fill
deriving DecidableEq, Repr

namespace LineRead

/-- The same reading with earlier bytes in front. -/
def after (earlier : List UInt8) (read : LineRead) : LineRead :=
  { read with bytes := earlier ++ read.bytes }

end LineRead

/-- Read to the first newline, first among the bytes already delivered. Interruptions are retried.
-/
def readLine (chunk : List UInt8) (script : List Fill) : LineRead :=
  match chunk.dropWhile (· != newline) with
  | _ :: rest => ⟨chunk.takeWhile (· != newline) ++ [newline], none, rest, script⟩
  | [] =>
    match script with
    | [] => ⟨chunk, none, [], []⟩
    | .bytes [] :: script => ⟨chunk, none, [], script⟩
    | .bytes (byte :: bytes) :: script => (readLine (byte :: bytes) script).after chunk
    | .interrupted :: script => (readLine [] script).after chunk
    | .failed message :: script => ⟨chunk, some message, [], script⟩

/-- Every byte is either in the line or still to be read. -/
theorem length_readLine (chunk : List UInt8) (script : List Fill) :
    let read := readLine chunk script
    read.bytes.length + read.chunk.length + Fill.total read.script =
      chunk.length + Fill.total script := by
  fun_induction readLine chunk script with
  | case1 script chunk _ rest split =>
    have whole := congrArg List.length (@List.takeWhile_append_dropWhile _ (· != newline) chunk)
    simp only [split, List.length_append, List.length_cons] at whole
    simp only [List.length_append, List.length_cons, List.length_nil]
    omega
  | case2 => simp
  | case3 => simp [Fill.contents]
  | case4 =>
    simp only [LineRead.after, Fill.contents, Fill.total_cons, List.length_append] at *
    omega
  | case5 =>
    simp only [LineRead.after, Fill.contents, Fill.total_cons, List.length_append,
      List.length_nil] at *
    omega
  | case6 => simp [Fill.contents]

/-- Whether a reader may still ask for bytes. -/
inductive ReaderStatus where
  | reading
  | ended
  | failed (message : String)
deriving DecidableEq, Repr

/-- A reader of characters: the rest of the line that was read last, the bytes delivered after it,
and the answers that the reader of bytes will give. -/
structure LineReader where
  line : List Char
  chunk : List UInt8
  script : List Fill
  consumed : Nat
  status : ReaderStatus
deriving DecidableEq, Repr

namespace LineReader

/-- A reader that will get these answers. -/
def ofScript (script : List Fill) : LineReader := ⟨[], [], script, 0, .reading⟩

/-- A reader that will get one more answer. -/
def feed (reader : LineReader) (fill : Fill) : LineReader :=
  { reader with script := reader.script ++ [fill] }

/-- Read another line and hand out its first character. -/
def nextLine (reader : LineReader) : Option Char × LineReader :=
  let read := readLine reader.chunk reader.script
  let consumed := reader.consumed + read.bytes.length
  match read.failure? with
  | some message => (none, ⟨[], read.chunk, read.script, consumed, .failed message⟩)
  | none =>
    match Utf8.decode read.bytes with
    | [] => (none, ⟨[], read.chunk, read.script, consumed, .ended⟩)
    | char :: line => (some char, ⟨line, read.chunk, read.script, consumed, .reading⟩)

/-- The next character: of the line at hand, else of the next line. -/
def next (reader : LineReader) : Option Char × LineReader :=
  match reader.line, reader.status with
  | char :: line, _ => (some char, { reader with line })
  | [], .reading => reader.nextLine
  | [], _ => (none, reader)

/-- The failure that ended the input. -/
def failure? (reader : LineReader) : Option String :=
  match reader.status with
  | .failed message => some message
  | _ => none

/-- A bound on the characters still to come: those at hand and one for each byte. -/
def remaining (reader : LineReader) : Nat :=
  reader.line.length + reader.chunk.length + Fill.total reader.script

theorem remaining_nextLine_lt {reader : LineReader} {char : Char}
    (answered : reader.nextLine.1 = some char) :
    reader.nextLine.2.remaining < reader.remaining := by
  have bytes := length_readLine reader.chunk reader.script
  have chars := Utf8.length_decode_le (readLine reader.chunk reader.script).bytes
  revert answered
  unfold nextLine
  dsimp only at bytes ⊢
  split
  · simp
  · split
    · simp
    · next decoded =>
      intro _
      rw [decoded, List.length_cons] at chars
      simp only [remaining]
      omega

theorem remaining_next_lt {reader : LineReader} {char : Char}
    (answered : reader.next.1 = some char) : reader.next.2.remaining < reader.remaining := by
  unfold next at answered ⊢
  split at answered
  · next line => simp [remaining, line]
  · exact remaining_nextLine_lt answered
  · simp at answered

instance : CharSource LineReader where
  next := next
  remaining := remaining
  failure? := failure?
  remaining_next_lt := remaining_next_lt

end LineReader

end OpLang
