import OpLang.Pattern.Parser
import OpLang.Pattern.Rule

/-! # What written patterns mean

Flags decide what characters, dots and conditions mean. No tables of properties are at hand, so what
asks for properties beyond ASCII is refused: sets by letters and properties, words and the folding
of case, unless Unicode is switched off. Where it is, nothing may match a byte that is no character
by itself. The machine for a pattern has a state for each byte to match, so counts multiply its
size; a pattern whose machine would be too large is refused. The sizes for sets beyond ASCII are
estimates.
-/

namespace OpLang.Pattern

/-- What flags can change. -/
structure Modes where
  ignoreCase : Bool
  multiLine : Bool
  dotMatchesNewline : Bool
  unicode : Bool
  carriageReturns : Bool
deriving DecidableEq, Repr

namespace Modes

/-- How a pattern begins. -/
def initial : Modes := ⟨false, false, false, true, false⟩

/-- The modes behind a list of flags. -/
def apply (modes : Modes) (items : List FlagItem) : Modes where
  ignoreCase := (FlagItem.state? .ignoreCase true items).getD modes.ignoreCase
  multiLine := (FlagItem.state? .multiLine true items).getD modes.multiLine
  dotMatchesNewline :=
    (FlagItem.state? .dotMatchesNewline true items).getD modes.dotMatchesNewline
  unicode := (FlagItem.state? .unicode true items).getD modes.unicode
  carriageReturns := (FlagItem.state? .carriageReturns true items).getD modes.carriageReturns

end Modes

/-- A rule with what is known of its machine: its size in bytes, whether a match can have a length,
and whether it asks for words beyond ASCII. -/
structure Machine where
  rule : Rule
  size : Nat
  advances : Bool
  asksForWords : Bool
deriving Repr

namespace Machine

/-- The size of a state. -/
def stateSize : Nat := 32

/-- The size of a way out of a state by a range of bytes. -/
def rangeSize : Nat := 8

/-- The size of one of several ways out of a state without a byte. -/
def branchSize : Nat := 4

/-- The states of a machine beside those of its pattern. -/
def frameSize : Nat := 208

/-- Match the empty text. -/
def empty : Machine := ⟨.nothing, 0, false, false⟩

/-- Match one character of a set; the size of its machine is given. -/
def one (set : CharSet) (size : Nat) : Machine := ⟨.one set, size, true, false⟩

/-- Match one thing after another. -/
def sequence (machines : List Machine) : Machine where
  rule := .ofSequence (machines.map (·.rule))
  size := (machines.map (·.size)).foldr (· + ·) 0
  advances := machines.any (·.advances)
  asksForWords := machines.any (·.asksForWords)

/-- Match any of several things. -/
def choice (machines : List Machine) : Machine where
  rule := .ofChoice (machines.map (·.rule))
  size := 2 * stateSize +
    (machines.map fun machine => machine.size + branchSize).foldr (· + ·) 0
  advances := machines.any (·.advances)
  asksForWords := machines.any (·.asksForWords)

/-- Remember where something was matched. -/
def capture (machine : Machine) : Machine := { machine with size := machine.size + 2 * stateSize }

/-- The size of a machine that repeats another: a copy for each match that has to be there or may be
there, with a fork before each of the latter. -/
def repeatedSize (body least : Nat) (most? : Option Nat) : Nat :=
  let fork := stateSize + 2 * branchSize
  match most? with
  | none => body * max 1 least + fork
  | some most => body * least + (body + fork) * (most - least) + stateSize

/-- Match something repeatedly. What has no length is not matched more than once, and what is never
matched is not part of the machine. -/
def repeated (body : Machine) (least : Nat) (most? : Option Nat) : Machine :=
  if most? = some 0 then empty
  else
    let least := if body.advances then least else min least 1
    let most? := if body.advances then most? else some ((most?.map (min 1)).getD 1)
    { body with
      rule := .repeated body.rule least most?
      size := repeatedSize body.size least most? }

end Machine

/-- A set of characters with the size that it adds to a machine, and whether it holds every
character together with its variants by case. -/
structure SizedSet where
  set : CharSet
  size : Nat
  isFolded : Bool
deriving Repr

namespace SizedSet

/-- No characters. -/
def empty : SizedSet := ⟨.empty, 0, true⟩

/-- The set that some ranges of ASCII characters make up. -/
def ofAsciiRanges (ranges : List (Nat × Nat)) : SizedSet :=
  ⟨.ranges ranges, ranges.length * Machine.rangeSize, false⟩

/-- The characters between two. -/
def between (first last : Char) : SizedSet :=
  ⟨.between first last, if last.toNat < 128 then Machine.rangeSize else 400, false⟩

/-- One set beside another. -/
def union (left right : SizedSet) : SizedSet :=
  ⟨.union left.set right.set, left.size + right.size, left.isFolded && right.isFolded⟩

/-- Fold a set where case is ignored. Beyond ASCII that cannot be done. -/
def fold (modes : Modes) (span : Span) (sized : SizedSet) : Except Complaint SizedSet :=
  if !modes.ignoreCase then .ok sized
  else if !modes.unicode then .ok { sized with set := .folded sized.set }
  else if sized.isFolded then .ok sized
  else Cursor.complain span .caseUnavailable

/-- Fold and negate a set as it is wanted; where Unicode is off nothing can be negated. -/
def finish (modes : Modes) (negated : Bool) (span : Span) (sized : SizedSet) :
    Except Complaint SizedSet := do
  let folded ← sized.fold modes span
  if negated && !modes.unicode then Cursor.complain span .invalidUtf8
  return ⟨.negatedIf negated folded.set, if negated then folded.size + 900 else folded.size,
    folded.isFolded⟩

/-- Combine two sets, which are folded first where case is ignored. -/
def combine (modes : Modes) (operator : SetOperator) (left right : SizedSet)
    (leftSpan rightSpan : Span) : Except Complaint SizedSet := do
  let right ← right.fold modes rightSpan
  let left ← left.fold modes leftSpan
  return ⟨.combine operator left.set right.set, left.size + right.size,
    left.isFolded && right.isFolded⟩

/-- The machine for one character of a set. -/
def toMachine (sized : SizedSet) : Machine :=
  .one sized.set (2 * Machine.stateSize + sized.size)

end SizedSet

/-- Refuse a character that is not ASCII where Unicode is off. -/
def Literal.checkByte (modes : Modes) (literal : Literal) : Except Complaint Unit :=
  if modes.unicode || literal.char.toNat < 128 then .ok ()
  else if literal.fromByte then Cursor.complain literal.span .invalidUtf8
  else Cursor.complain literal.span .unicodeNotAllowed

/-- The complaint about a property: none is known. Three names are read as values, since they mean
both a property and a value. -/
def PropertyQuery.cause : PropertyQuery → Cause
  | .valued _ _ => .propertyUnknown
  | .named name =>
    let chars := name.toList
    let leading := (chars.take 2).map Char.toLower = ['i', 's']
    let kept := (if leading then chars.drop 2 else chars).filter fun char =>
      char.toNat < 128 && char != ' ' && char != '_' && char != '-'
    if ["cf", "sc", "lc"].contains (String.ofList (kept.map Char.toLower)) then
      .propertyValueUnknown
    else .propertyUnknown

/-- The set that a property asks for. -/
def PropertyQuery.meaning (modes : Modes) (span : Span) (query : PropertyQuery) :
    Except Complaint SizedSet :=
  Cursor.complain span (if modes.unicode then query.cause else .unicodeNotAllowed)

/-- The set of a letter. -/
def Shorthand.meaning (modes : Modes) (negated : Bool) (span : Span) (set : Shorthand) :
    Except Complaint SizedSet :=
  if modes.unicode then Cursor.complain span .shorthandUnavailable
  else if negated then Cursor.complain span .invalidUtf8
  else .ok (.ofAsciiRanges (CharSet.asciiRanges set.asciiSet))

mutual

/-- The set that members of a bracket amount to. -/
def Members.meaning (modes : Modes) : Members → Except Complaint SizedSet
  | .nothing _ => .ok .empty
  | .literal literal => do
    literal.checkByte modes
    return .between literal.char literal.char
  | .range first last _ => do
    first.checkByte modes
    last.checkByte modes
    return .between first.char last.char
  | .ascii set negated span =>
    (SizedSet.ofAsciiRanges (CharSet.asciiRanges set)).finish modes negated span
  | .shorthand set negated span => set.meaning modes negated span
  | .property query _ span => query.meaning modes span
  | .nested negated members span => do
    (← members.meaning modes).finish modes negated span
  | .union parts _ => membersMeaning modes parts
  | .combined operator left right _ => do
    let leftSet ← left.meaning modes
    let rightSet ← right.meaning modes
    SizedSet.combine modes operator leftSet rightSet left.span right.span

/-- The set that several members amount to. -/
def membersMeaning (modes : Modes) : List Members → Except Complaint SizedSet
  | [] => .ok .empty
  | part :: parts => do
    let first ← part.meaning modes
    let others ← membersMeaning modes parts
    return first.union others

end

/-- The machine for a character that stands for itself. -/
def Literal.meaning (modes : Modes) (literal : Literal) : Except Complaint Machine :=
  let char := literal.char
  if !modes.unicode && literal.fromByte && 128 ≤ char.toNat then
    Cursor.complain literal.span .invalidUtf8
  else if modes.ignoreCase && modes.unicode then Cursor.complain literal.span .caseUnavailable
  else if modes.ignoreCase && char.isAlpha then
    .ok (.one (.folded (.single char)) (2 * Machine.stateSize + 2 * Machine.rangeSize))
  else .ok (.one (.single char) (char.utf8Size * Machine.stateSize))

/-- The machine for a dot. -/
def dotMeaning (modes : Modes) (span : Span) : Except Complaint Machine :=
  if !modes.unicode then Cursor.complain span .invalidUtf8
  else if modes.dotMatchesNewline then .ok (.one .all 964)
  else if modes.carriageReturns then
    .ok (.one (.complement (.union (.single '\n') (.single '\r'))) 1036)
  else .ok (.one (.complement (.single '\n')) 1000)

/-- The condition that an assertion stands for. -/
def Assertion.condition (modes : Modes) : Assertion → Condition
  | .lineStart =>
    if !modes.multiLine then .textStart
    else if modes.carriageReturns then .anyLineStart
    else .lineStart
  | .lineEnd =>
    if !modes.multiLine then .textEnd
    else if modes.carriageReturns then .anyLineEnd
    else .lineEnd
  | .textStart => .textStart
  | .textEnd => .textEnd
  | .wordBoundary => .boundary
  | .noWordBoundary => .noBoundary
  | .wordStart => .wordStart
  | .wordEnd => .wordEnd
  | .wordStartHalf => .wordStartHalf
  | .wordEndHalf => .wordEndHalf

/-- Whether an assertion asks where words begin or end. -/
def Assertion.isAboutWords : Assertion → Bool
  | .lineStart | .lineEnd | .textStart | .textEnd => false
  | _ => true

/-- The machine for an assertion. -/
def Assertion.meaning (modes : Modes) (assertion : Assertion) : Machine where
  rule := .condition (assertion.condition modes)
  size := Machine.stateSize
  advances := false
  asksForWords := modes.unicode && assertion.isAboutWords

mutual

/-- The machine for a tree and the modes behind it. Flags hold up to the end of their group, also in
the branches of a choice that come later. -/
def Tree.meaning (modes : Modes) : Tree → Except Complaint (Machine × Modes)
  | .empty _ => .ok (.empty, modes)
  | .flags items _ => .ok (.empty, modes.apply items)
  | .literal literal => do return (← literal.meaning modes, modes)
  | .dot span => do return (← dotMeaning modes span, modes)
  | .assertion assertion _ => .ok (assertion.meaning modes, modes)
  | .shorthand set negated span => do
    return ((← set.meaning modes negated span).toMachine, modes)
  | .property query _ span => do return ((← query.meaning modes span).toMachine, modes)
  | .bracket negated members span => do
    let sized ← members.meaning modes
    return ((← sized.finish modes negated span).toMachine, modes)
  | .repeated body least most? _ => do
    let (machine, modes) ← body.meaning modes
    return (machine.repeated least most?, modes)
  | .group captures flags body _ => do
    let (machine, _) ← body.meaning (modes.apply flags)
    return (if captures then machine.capture else machine, modes)
  | .sequence parts _ => do
    let (machines, modes) ← treesMeaning modes parts
    return (.sequence machines, modes)
  | .choice branches _ => do
    let (machines, modes) ← treesMeaning modes branches
    return (.choice machines, modes)

/-- The machines for several trees, one after the other, and the modes behind them. -/
def treesMeaning (modes : Modes) : List Tree → Except Complaint (List Machine × Modes)
  | [] => .ok ([], modes)
  | part :: parts => do
    let (machine, modes) ← part.meaning modes
    let (machines, modes) ← treesMeaning modes parts
    return (machine :: machines, modes)

end

/-- Why a pattern is refused. -/
inductive Refusal where
  | faulty (pattern : String) (complaint : Complaint)
  | tooLarge
  | wordsUnavailable
deriving DecidableEq, Repr

namespace Refusal

/-- The wording of a refusal. -/
def text : Refusal → String
  | faulty pattern complaint => complaint.report pattern
  | tooLarge => "Compiled regex exceeds size limit of " ++ toString sizeLimit ++ " bytes."
  | wordsUnavailable => "error building NFA"

end Refusal

/-- The rule of a pattern. -/
def Rule.ofText (text : String) : Except Refusal Rule :=
  match (do (← Tree.ofText text).meaning .initial) with
  | .error complaint => .error (.faulty text complaint)
  | .ok (machine, _) =>
    if sizeLimit < Machine.frameSize + machine.size then .error .tooLarge
    else if machine.asksForWords then .error .wordsUnavailable
    else .ok machine.rule

end OpLang.Pattern
