import OpLang.Pattern.Bracket
import OpLang.Text.Letters

/-! # Reading patterns

A pattern is a choice of sequences. Groups are begun and closed by parentheses; what has been begun
is kept on a stack, so the innermost group that is not closed is the one complained about. Flags
without a group hold up to the end of the group they stand in.
-/

namespace OpLang.Pattern

namespace Parser

/-- A sequence that is being read, the last part first, and where it begins. -/
structure Run where
  start : Location
  parts : List Tree
deriving Repr, Inhabited

namespace Run

/-- A sequence as one tree; it ends at a location. -/
def toTree (run : Run) (past : Location) : Tree :=
  match run.parts.reverse with
  | [] => .empty ⟨run.start, past⟩
  | [part] => part
  | parts => .sequence parts ⟨run.start, past⟩

/-- A sequence with one more part. -/
def push (run : Run) (part : Tree) : Run := { run with parts := part :: run.parts }

end Run

/-- A group that has been begun: what stands before it, what it is, and whether blanks are passed
over outside. -/
structure Group where
  before : Run
  captures : Bool
  flags : List FlagItem
  span : Span
  extendedOutside : Bool
deriving Repr, Inhabited

/-- What has been begun: a group, or a choice with the branches so far, the last one first. -/
inductive Frame where
  | group (group : Group)
  | branches (start : Location) (branches : List Tree)
deriving Repr, Inhabited

/-- The state of reading a pattern. -/
structure State where
  cursor : Cursor
  run : Run
  stack : List Frame
  /-- The names of the groups with where they stand. -/
  names : List (String × Span)
deriving Inhabited

/-- Whether a character may begin the name of a group. -/
def isNameStart (char : Char) : Bool := char = '_' || isLetter char

/-- Whether a character may stand in the name of a group. -/
def isNamePart (char : Char) : Bool :=
  isNameStart char || isNumber char || char = '.' || char = '[' || char = ']'

/-- The flag of a letter. -/
def flag? : Char → Option Flag
  | 'i' => some .ignoreCase
  | 'm' => some .multiLine
  | 's' => some .dotMatchesNewline
  | 'U' => some .swapGreed
  | 'u' => some .unicode
  | 'R' => some .carriageReturns
  | 'x' => some .ignoreBlanks
  | _ => none

/-- The flag or the negation that a character stands for. -/
def flagItem (place : Place) : Except Complaint FlagItem :=
  if place.char = '-' then .ok ⟨none, place.span⟩
  else
    match flag? place.char with
    | some flag => .ok ⟨some flag, place.span⟩
    | none => Cursor.complain place.span .flagUnknown

/-- Read flags up to a colon or a closing parenthesis, after those already read. -/
def readFlags (finish : Location) (items : List FlagItem) :
    List Place → Except Complaint (List FlagItem × List Place)
  | [] => Cursor.complain (.point finish) .flagMissing
  | place :: places =>
    if place.char = ':' || place.char = ')' then
      match items.getLast? with
      | some ⟨none, span⟩ => Cursor.complain span .flagNegationDangling
      | _ => .ok (items, place :: places)
    else do
      let item ← flagItem place
      match items.find? (·.flag? == item.flag?) with
      | some earlier =>
        let cause := if item.flag?.isNone then Cause.flagNegationRepeated else Cause.flagRepeated
        .error ⟨cause, place.span, some earlier.span⟩
      | none => readFlags finish (items ++ [item]) places

/-- Read the name of a group up to the closing angle bracket. -/
def readName (names : List (String × Span)) (cursor : Cursor) :
    Except Complaint ((String × Span) × Cursor) := do
  let places := cursor.ahead.takeWhile (·.char != '>')
  let closing := cursor.drop places.length
  match places with
  | [] =>
    if closing.ahead.isEmpty then Cursor.complain closing.hereSpan .groupNameUnclosed
    else Cursor.complain (.point cursor.here) .groupNameEmpty
  | first :: others =>
    if !isNameStart first.char then Cursor.complain first.span .groupNameInvalid
    match others.find? fun place => !isNamePart place.char with
    | some place => Cursor.complain place.span .groupNameInvalid
    | none =>
      if closing.ahead.isEmpty then Cursor.complain closing.hereSpan .groupNameUnclosed
      let name := String.ofList (places.map (·.char))
      let span : Span := ⟨cursor.here, closing.here⟩
      match names.lookup name with
      | some earlier => .error ⟨.groupNameRepeated, span, some earlier⟩
      | none => return ((name, span), closing.skip)

/-- The beginnings of conditions on what stands before or behind a place. -/
def lookArounds : List (List Char) := [['?', '='], ['?', '!'], ['?', '<', '='], ['?', '<', '!']]

/-- Go on inside a group. -/
def State.enter (state : State) (captures : Bool) (flags : List FlagItem) (span : Span)
    (rest : Cursor) : State :=
  let outside := state.cursor.extended
  let inside := { rest with extended := (FlagItem.state? .ignoreBlanks true flags).getD outside }
  { state with
    cursor := inside
    run := ⟨inside.here, []⟩
    stack := .group ⟨state.run, captures, flags, span, outside⟩ :: state.stack }

/-- Read flags with their parentheses, or begin a group that does not capture. The cursor stands
behind the question mark. -/
def openFlags (state : State) (span : Span) (question rest : Cursor) : Except Complaint State := do
  if rest.ahead.isEmpty then Cursor.complain span .groupUnclosed
  let (items, places) ← readFlags rest.finish [] rest.ahead
  let closing := rest.moveTo places
  let behind := closing.skip
  if closing.char? = some ':' then return state.enter false items span behind
  else
    if items.isEmpty then Cursor.complain (.point question.here) .nothingToRepeat
    let extended := (FlagItem.state? .ignoreBlanks true items).getD behind.extended
    let tree : Tree := .flags items ⟨span.first, behind.here⟩
    return { state with cursor := { behind with extended }, run := state.run.push tree }

/-- Begin a group or read flags. The cursor stands before the parenthesis. -/
def openGroup (state : State) : Except Complaint State := do
  let span := state.cursor.hereSpan
  let rest := state.cursor.advance
  match lookArounds.find? rest.startsWith with
  | some sign => (rest.drop sign.length).complainFrom span.first .lookAround
  | none =>
    let named? :=
      if rest.startsWith ['?', 'P', '<'] then some (rest.drop 3)
      else if rest.startsWith ['?', '<'] then some (rest.drop 2)
      else none
    match named? with
    | some name =>
      let (name, behind) ← readName state.names name
      return { state with names := name :: state.names }.enter true [] span behind
    | none =>
      if rest.char? = some '?' then openFlags state span rest rest.skip
      else return state.enter true [] span rest

/-- Close a group around its body. -/
def closeAround (state : State) (group : Group) (body : Tree) (stack : List Frame) : State :=
  let rest := { state.cursor.skip with extended := group.extendedOutside }
  let tree : Tree := .group group.captures group.flags body ⟨group.span.first, rest.here⟩
  { state with cursor := rest, run := group.before.push tree, stack }

/-- Close the innermost group. The cursor stands before the parenthesis. -/
def closeGroup (state : State) : Except Complaint State :=
  let past := state.cursor.here
  let last := state.run.toTree past
  match state.stack with
  | .group group :: stack => .ok (closeAround state group last stack)
  | .branches start branches :: .group group :: stack =>
    .ok (closeAround state group (.choice (branches.reverse ++ [last]) ⟨start, past⟩) stack)
  | _ => Cursor.complain state.cursor.hereSpan .groupUnopened

/-- Begin the next branch of a choice. The cursor stands before the bar. -/
def nextBranch (state : State) : State :=
  let last := state.run.toTree state.cursor.here
  let rest := state.cursor.skip
  let stack :=
    match state.stack with
    | .branches start branches :: stack => .branches start (last :: branches) :: stack
    | stack => .branches state.run.start [last] :: stack
  { state with cursor := rest, run := ⟨rest.here, []⟩, stack }

/-- What a sign of repetition repeats, and what stands before it. -/
def repeatable (state : State) : Except Complaint (Tree × Run) :=
  match state.run.parts with
  | part :: parts =>
    if part.isRepeatable then .ok (part, { state.run with parts })
    else Cursor.complain (.point state.cursor.here) .nothingToRepeat
  | [] => Cursor.complain (.point state.cursor.here) .nothingToRepeat

/-- Repeat a part. -/
def pushRepeated (state : State) (body : Tree) (before : Run) (least : Nat) (most? : Option Nat)
    (rest : Cursor) : State :=
  let tree : Tree := .repeated body least most? ⟨body.span.first, rest.here⟩
  { state with cursor := rest, run := before.push tree }

/-- Pass the question mark that makes a repetition as short as possible. -/
def skipLazy (cursor : Cursor) : Cursor :=
  if cursor.char? = some '?' then cursor.skip else cursor

/-- Read a repetition without counts. The cursor stands before its sign. -/
def repeatPlain (state : State) (least : Nat) (most? : Option Nat) : Except Complaint State := do
  let (body, before) ← repeatable state
  return pushRepeated state body before least most? (skipLazy state.cursor.skip)

/-- Read a number of repetitions; none is a complaint that the caller may drop. -/
def readCount (cursor : Cursor) : Except Complaint Nat × Cursor :=
  let (_, start) := cursor.takeWhile isBlank
  let (digits, behind) := start.takeWhile Char.isDigit
  let (_, rest) := behind.takeWhile isBlank
  let span : Span := ⟨start.here, behind.here⟩
  let count := digits.foldl (fun count digit => 10 * count + (digit.toNat - '0'.toNat)) 0
  if digits.isEmpty then (Cursor.complain span .countEmpty, rest)
  else if Nat.pow 2 32 ≤ count then (Cursor.complain span .decimalTooLarge, rest)
  else (.ok count, rest)

/-- Read the counts of a repetition. The cursor stands before the brace. -/
def readCounts (cursor : Cursor) : Except Complaint ((Nat × Option Nat) × Cursor) := do
  let start := cursor.here
  let opened := cursor.advance
  if opened.ahead.isEmpty then opened.complainFrom start .countUnclosed
  let (least, rest) := readCount opened
  if rest.ahead.isEmpty then rest.complainFrom start .countUnclosed
  if rest.char? != some ',' then
    let count ← least
    return ((count, some count), rest)
  else
    let behind := rest.advance
    if behind.ahead.isEmpty then behind.complainFrom start .countUnclosed
    let count ← least
    if behind.char? = some '\x7d' then return ((count, none), behind)
    let (most, rest) := readCount behind
    return ((count, some (← most)), rest)

/-- Read a repetition with counts. The cursor stands before the brace. -/
def repeatCounted (state : State) : Except Complaint State := do
  let start := state.cursor.here
  let (body, before) ← repeatable state
  let ((least, most?), closing) ← readCounts state.cursor
  if closing.char? != some '\x7d' then closing.complainFrom start .countUnclosed
  let rest := skipLazy closing.advance
  if most?.any (· < least) then rest.complainFrom start .countReversed
  return pushRepeated state body before least most? rest

/-- Read the next part of a pattern. The cursor stands before a character. -/
def step (state : State) (place : Place) : Except Complaint State :=
  let single := fun (tree : Tree) =>
    .ok { state with cursor := state.cursor.skip, run := state.run.push tree }
  let nested := fun (read : Cursor → Except Complaint (Tree × Cursor)) => do
    let (tree, rest) ← read state.cursor
    return { state with cursor := rest, run := state.run.push tree }
  match place.char with
  | '(' => openGroup state
  | ')' => closeGroup state
  | '|' => .ok (nextBranch state)
  | '[' => nested Bracket.read
  | '\\' => nested Escape.read
  | '?' => repeatPlain state 0 (some 1)
  | '*' => repeatPlain state 0 none
  | '+' => repeatPlain state 1 none
  | '\x7b' => repeatCounted state
  | '.' => single (.dot place.span)
  | '^' => single (.assertion .lineStart place.span)
  | '$' => single (.assertion .lineEnd place.span)
  | char => single (.literal ⟨char, false, place.span⟩)

/-- Finish at the end of a pattern: every group has to be closed. -/
def finish (state : State) : Except Complaint Tree :=
  let past := state.cursor.here
  let last := state.run.toTree past
  match state.stack with
  | [] => .ok last
  | .branches start branches :: [] => .ok (.choice (branches.reverse ++ [last]) ⟨start, past⟩)
  | .branches _ _ :: .group group :: _ => Cursor.complain group.span .groupUnclosed
  | .group group :: _ => Cursor.complain group.span .groupUnclosed
  | .branches _ _ :: .branches _ _ :: _ => .ok last

/-- Read parts until the pattern ends. Every step passes a character, so as many steps as there are
characters suffice. -/
def run : (fuel : Nat) → State → Except Complaint Tree
  | 0, state => finish state
  | fuel + 1, state =>
    let cursor := state.cursor.skipBlanks
    match cursor.ahead with
    | [] => finish { state with cursor }
    | place :: _ => do run fuel (← step { state with cursor } place)

end Parser

mutual

/-- The first part of a set that is nested too deeply, where so many levels are left. -/
def Members.tooDeep? (left : Nat) : Members → Option Span
  | .nested _ members span =>
    match left with
    | 0 => some span
    | left + 1 => members.tooDeep? left
  | .union parts span =>
    match left with
    | 0 => some span
    | left + 1 => membersTooDeep? left parts
  | .combined _ first second span =>
    match left with
    | 0 => some span
    | left + 1 => (first.tooDeep? left).or (second.tooDeep? left)
  | _ => none

/-- The first of several sets that is nested too deeply. -/
def membersTooDeep? (left : Nat) : List Members → Option Span
  | [] => none
  | part :: parts => (part.tooDeep? left).or (membersTooDeep? left parts)

end

mutual

/-- The first part of a tree that is nested too deeply, where so many levels are left. -/
def Tree.tooDeep? (left : Nat) : Tree → Option Span
  | .bracket _ members span =>
    match left with
    | 0 => some span
    | left + 1 => members.tooDeep? left
  | .repeated body _ _ span =>
    match left with
    | 0 => some span
    | left + 1 => body.tooDeep? left
  | .group _ _ body span =>
    match left with
    | 0 => some span
    | left + 1 => body.tooDeep? left
  | .sequence parts span =>
    match left with
    | 0 => some span
    | left + 1 => treesTooDeep? left parts
  | .choice branches span =>
    match left with
    | 0 => some span
    | left + 1 => treesTooDeep? left branches
  | _ => none

/-- The first of several trees that is nested too deeply. -/
def treesTooDeep? (left : Nat) : List Tree → Option Span
  | [] => none
  | part :: parts => (part.tooDeep? left).or (treesTooDeep? left parts)

end

/-- Read a pattern. -/
def Tree.ofText (text : String) : Except Complaint Tree := do
  let cursor := Cursor.ofText text
  let tree ← Parser.run (text.length + 1) ⟨cursor, ⟨cursor.here, []⟩, [], []⟩
  match tree.tooDeep? nestingLimit with
  | some span => Cursor.complain span .nestedTooDeeply
  | none => return tree

end OpLang.Pattern
