import OpLang.Pattern.Escape

/-! # Sets of characters between square brackets

Square brackets hold characters, ranges, escapes, named sets and further brackets, which are joined;
two signs in a row intersect or subtract what stands on their sides, from left to right. A closing
bracket right at the beginning stands for itself, and so do dashes there.
-/

namespace OpLang.Pattern.Bracket

/-- Members that have been read and will be joined, the last one first, and where they begin. -/
structure Joined where
  start : Location
  parts : List Members
deriving Repr, Inhabited

namespace Joined

/-- Join one more part. -/
def push (joined : Joined) (part : Members) : Joined :=
  { joined with parts := part :: joined.parts }

/-- The parts as one. -/
def toMembers (joined : Joined) : Members :=
  match joined.parts.reverse with
  | [] => .nothing (.point joined.start)
  | [part] => part
  | first :: parts =>
    let last := (parts.getLast?.getD first).span
    .union (first :: parts) ⟨first.span.first, last.past⟩

end Joined

/-- What has been begun: a bracket, with the members before it, or an operator with its left side.
-/
inductive Frame where
  | opened (before : Joined) (negated : Bool) (span : Span)
  | operator (operator : SetOperator) (left : Members)
deriving Repr, Inhabited

/-- The state of reading a bracket. -/
structure State where
  cursor : Cursor
  joined : Joined
  stack : List Frame
deriving Inhabited

/-- Complain that a bracket is not closed: the innermost of those begun. -/
def complainUnclosed {α : Type} (stack : List Frame) : Except Complaint α :=
  let span? := stack.findSome? fun
    | .opened _ _ span => some span
    | .operator _ _ => none
  Cursor.complain (span?.getD default) .setUnclosed

/-- The dashes at the beginning of a bracket, and the cursor behind them. -/
def leadingDashes (start : Location) (joined : Joined) (cursor : Cursor) :
    Except Complaint (Joined × Cursor) :=
  match _ : cursor.ahead with
  | [] => Cursor.complain (.point start) .setUnclosed
  | place :: _ =>
    if place.char = '-' then
      leadingDashes start (joined.push (.literal ⟨'-', false, place.span⟩)) cursor.advance
    else .ok (joined, cursor)
termination_by cursor.ahead.length
decreasing_by exact Cursor.length_advance_lt ‹_›

/-- Begin a bracket. The cursor stands before it. -/
def begin (before : Joined) (stack : List Frame) (cursor : Cursor) : Except Complaint State := do
  let start := cursor.here
  let opened := cursor.advance
  let negated := opened.char? = some '^'
  let inside := if negated then opened.advance else opened
  if inside.ahead.isEmpty then inside.complainFrom start .setUnclosed
  let (joined, inside) ← leadingDashes start ⟨inside.here, []⟩ inside
  let (joined, inside) :=
    if joined.parts.isEmpty && inside.char? = some ']' then
      (joined.push (.literal ⟨']', false, inside.hereSpan⟩), inside.advance)
    else (joined, inside)
  if inside.ahead.isEmpty then inside.complainFrom start .setUnclosed
  return ⟨inside, joined, .opened before negated ⟨start, inside.here⟩ :: stack⟩

/-- Apply the operator that waits for its right side, if one does. -/
def settle (right : Members) : List Frame → Members × List Frame
  | .operator operator left :: stack =>
    (.combined operator left right ⟨left.span.first, right.span.past⟩, stack)
  | stack => (right, stack)

/-- The sets of ASCII characters by their names. -/
def asciiSet? : String → Option AsciiSet
  | "alnum" => some .alnum
  | "alpha" => some .alpha
  | "ascii" => some .ascii
  | "blank" => some .blank
  | "cntrl" => some .cntrl
  | "digit" => some .digit
  | "graph" => some .graph
  | "lower" => some .lower
  | "print" => some .print
  | "punct" => some .punct
  | "space" => some .space
  | "upper" => some .upper
  | "word" => some .word
  | "xdigit" => some .xdigit
  | _ => none

/-- Read the name of a set of ASCII characters between colons and brackets, if that is what stands
at the cursor. -/
def readAscii? (cursor : Cursor) : Option (Members × Cursor) :=
  if !cursor.startsWith ['[', ':'] then none
  else
    let name := cursor.drop 2
    let negated := name.char? = some '^'
    let name := if negated then name.skip else name
    let chars := (name.ahead.map (·.char)).takeWhile (· != ':')
    let closing := name.drop chars.length
    if !closing.startsWith [':', ']'] then none
    else
      let rest := closing.drop 2
      (asciiSet? (String.ofList chars)).map fun set =>
        (.ascii set negated ⟨cursor.here, rest.here⟩, rest)

/-- Read a character or an escape inside a bracket. -/
def readItem (cursor : Cursor) : Except Complaint (Tree × Cursor) :=
  match cursor.ahead with
  | [] => Cursor.complain cursor.hereSpan .setUnclosed
  | place :: _ =>
    if place.char = '\\' then Escape.read cursor
    else .ok (.literal ⟨place.char, false, place.span⟩, cursor.skip)

/-- What an item is as a member. -/
def asMember : Tree → Except Complaint Members
  | .literal literal => .ok (.literal literal)
  | .shorthand set negated span => .ok (.shorthand set negated span)
  | .property query negated span => .ok (.property query negated span)
  | tree => Cursor.complain tree.span .setEscape

/-- What an item is as a boundary of a range. -/
def asBoundary : Tree → Except Complaint Literal
  | .literal literal => .ok literal
  | tree => Cursor.complain tree.span .rangeBoundary

/-- Read an item or a range. A dash before the closing bracket or before another dash begins no
range. -/
def readRange (stack : List Frame) (cursor : Cursor) :
    Except Complaint (Members × Cursor) := do
  let (item, rest) ← readItem cursor
  let rest := rest.skipBlanks
  if rest.ahead.isEmpty then complainUnclosed stack
  if rest.char? != some '-' || rest.peekSolid? = some ']' || rest.peekSolid? = some '-' then
    return (← asMember item, rest)
  let boundary := rest.advance
  if boundary.ahead.isEmpty then complainUnclosed stack
  let (last, rest) ← readItem boundary
  let span : Span := ⟨item.span.first, last.span.past⟩
  let lower ← asBoundary item
  let upper ← asBoundary last
  if upper.char < lower.char then Cursor.complain span .rangeReversed
  return (.range lower upper span, rest)

/-- The operator that two equal signs stand for. -/
def operator? (cursor : Cursor) : Option SetOperator :=
  if cursor.startsWith ['&', '&'] then some .intersection
  else if cursor.startsWith ['-', '-'] then some .difference
  else if cursor.startsWith ['~', '~'] then some .symmetricDifference
  else none

/-- Close the innermost bracket: go on outside, or finish with a tree if it was the outermost. -/
def close (state : State) : Except Complaint (State ⊕ (Tree × Cursor)) :=
  let (members, stack) := settle state.joined.toMembers state.stack
  let rest := state.cursor.skip
  match stack with
  | .opened before negated span :: stack =>
    let span : Span := ⟨span.first, rest.here⟩
    if stack.isEmpty then .ok (.inr (.bracket negated members span, rest))
    else .ok (.inl ⟨rest, before.push (.nested negated members span), stack⟩)
  | stack => complainUnclosed stack

/-- Read the next part of a bracket. -/
def step (state : State) : Except Complaint (State ⊕ (Tree × Cursor)) := do
  let cursor := state.cursor.skipBlanks
  match cursor.char? with
  | none => complainUnclosed state.stack
  | some '[' =>
    match readAscii? cursor with
    | some (set, rest) => return .inl { state with cursor := rest, joined := state.joined.push set }
    | none => return .inl (← begin state.joined state.stack cursor)
  | some ']' => close { state with cursor }
  | some _ =>
    match operator? cursor with
    | some operator =>
      let (left, stack) := settle state.joined.toMembers state.stack
      let rest := cursor.drop 2
      return .inl ⟨rest, ⟨rest.here, []⟩, .operator operator left :: stack⟩
    | none =>
      let (part, rest) ← readRange state.stack cursor
      return .inl { state with cursor := rest, joined := state.joined.push part }

/-- Read parts until the outermost bracket is closed. Every step passes a character, so as many
steps as there are characters suffice. -/
def run : (fuel : Nat) → State → Except Complaint (Tree × Cursor)
  | 0, state => complainUnclosed state.stack
  | fuel + 1, state => do
    match ← step state with
    | .inl next => run fuel next
    | .inr found => return found

/-- Read a bracket. The cursor stands before it. -/
def read (cursor : Cursor) : Except Complaint (Tree × Cursor) := do
  let state ← begin ⟨cursor.here, []⟩ [] cursor
  run (state.cursor.ahead.length + 1) state

end OpLang.Pattern.Bracket
