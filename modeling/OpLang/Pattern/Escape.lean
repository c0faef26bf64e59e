import OpLang.Pattern.Cursor

/-! # Escapes in patterns

Behind a backslash stands a character that would otherwise mean something, a control character by
its letter, a character by its code, a set of characters, or a condition on a place.
-/

namespace OpLang.Pattern.Escape

/-- Characters that mean something in a pattern. -/
def metaCharacters : List Char :=
  ['\\', '.', '+', '*', '?', '(', ')', '|', '[', ']', '\x7b', '\x7d', '^', '$', '#', '&', '-', '~']

/-- Whether a character may stand behind a backslash just for itself: ASCII but for letters, digits
and angle brackets. -/
def standsForItself (char : Char) : Bool :=
  metaCharacters.contains char ||
    (char.toNat < 128 && !char.isAlphanum && char != '<' && char != '>')

/-- The control characters that have a letter. -/
def control? : Char → Option Char
  | 'a' => some '\x07'
  | 'f' => some '\x0c'
  | 't' => some '\t'
  | 'n' => some '\n'
  | 'r' => some '\r'
  | 'v' => some '\x0b'
  | _ => none

/-- The conditions that have a letter or sign; a boundary may be qualified further. -/
def assertion? : Char → Option Assertion
  | 'A' => some .textStart
  | 'z' => some .textEnd
  | 'b' => some .wordBoundary
  | 'B' => some .noWordBoundary
  | '<' => some .wordStart
  | '>' => some .wordEnd
  | _ => none

/-- The sets of characters that have a letter; a capital stands for all other characters. -/
def shorthand? : Char → Option (Shorthand × Bool)
  | 'd' => some (.digit, false)
  | 'D' => some (.digit, true)
  | 's' => some (.space, false)
  | 'S' => some (.space, true)
  | 'w' => some (.word, false)
  | 'W' => some (.word, true)
  | _ => none

/-- The boundaries that have a name. -/
def boundary? : String → Option Assertion
  | "start" => some .wordStart
  | "end" => some .wordEnd
  | "start-half" => some .wordStartHalf
  | "end-half" => some .wordEndHalf
  | _ => none

/-- How many digits the code of a character has when it stands without braces. -/
def codeWidth? : Char → Option Nat
  | 'x' => some 2
  | 'u' => some 4
  | 'U' => some 8
  | _ => none

/-- The value of a hexadecimal digit. -/
def hexDigit? (char : Char) : Option Nat :=
  if char.isDigit then some (char.toNat - '0'.toNat)
  else if 'a' ≤ char && char ≤ 'f' then some (char.toNat - 'a'.toNat + 10)
  else if 'A' ≤ char && char ≤ 'F' then some (char.toNat - 'A'.toNat + 10)
  else none

/-- The character of a code, if there is one. -/
def charOf? (digits : List Char) : Option Char :=
  let code := digits.foldl (fun code digit => 16 * code + (hexDigit? digit).getD 0) 0
  if code.isValidChar then some (Char.ofNat code) else none

/-- Read as many hexadecimal digits as are wanted. -/
def readDigits : (count : Nat) → Cursor → Except Complaint (List Char × Cursor)
  | 0, cursor => .ok ([], cursor)
  | count + 1, cursor =>
    match cursor.char? with
    | none => Cursor.complain cursor.hereSpan .escapeUnfinished
    | some digit => do
      if (hexDigit? digit).isNone then Cursor.complain cursor.hereSpan .hexDigit
      let (digits, cursor) ← readDigits count cursor.advance
      return (digit :: digits, cursor)

/-- Read the code of a character between braces. The cursor stands before the first of them. -/
def readBracedCode (start : Location) (cursor : Cursor) :
    Except Complaint (Literal × Cursor) := do
  let (digits, closing) := cursor.advance.takeWhile fun char => (hexDigit? char).isSome
  match closing.char? with
  | none => closing.complainFrom cursor.here .escapeUnfinished
  | some '\x7d' =>
    let rest := closing.advance
    if digits.isEmpty then rest.complainFrom cursor.here .hexEmpty
    match charOf? digits with
    | some char => return (⟨char, false, ⟨start, rest.here⟩⟩, rest)
    | none => closing.complainFrom cursor.hereSpan.past .hexNoCharacter
  | some _ => Cursor.complain closing.hereSpan .hexDigit

/-- Read the code of a character. The cursor stands before its letter. -/
def readCode (start : Location) (letter : Char) (width : Nat) (cursor : Cursor) :
    Except Complaint (Literal × Cursor) := do
  let code := cursor.advance
  match code.char? with
  | none => Cursor.complain code.hereSpan .escapeUnfinished
  | some '\x7b' => readBracedCode start code
  | some _ =>
    let (digits, rest) ← readDigits width code
    match charOf? digits with
    | some char => return (⟨char, letter = 'x', ⟨start, rest.here⟩⟩, rest)
    | none => rest.complainFrom code.here .hexNoCharacter

/-- Split characters at the first place where others occur. -/
def splitAt? (separator : List Char) : List Char → Option (List Char × List Char)
  | [] => none
  | char :: chars =>
    if separator.isPrefixOf (char :: chars) then
      some ([], (char :: chars).drop separator.length)
    else (splitAt? separator chars).map fun (before, behind) => (char :: before, behind)

/-- What is asked for between the braces of a property. -/
def queryOf (chars : List Char) : PropertyQuery :=
  match (splitAt? ['!', '='] chars).or ((splitAt? [':'] chars).or (splitAt? ['='] chars)) with
  | some (name, value) => .valued (String.ofList name) (String.ofList value)
  | none => .named (String.ofList chars)

/-- Read a property: one letter, or a name between braces. The cursor stands before its letter. -/
def readProperty (start : Location) (negated : Bool) (cursor : Cursor) :
    Except Complaint (Tree × Cursor) := do
  let name := cursor.advance
  match name.char? with
  | none => Cursor.complain name.hereSpan .escapeUnfinished
  | some '\x7b' =>
    let (chars, closing) := name.advance.takeWhile (· != '\x7d')
    if closing.ahead.isEmpty then Cursor.complain closing.hereSpan .escapeUnfinished
    let rest := closing.skip
    return (.property (queryOf chars) negated ⟨start, rest.here⟩, rest)
  | some '\\' => Cursor.complain name.hereSpan .propertyMalformed
  | some letter =>
    let rest := name.advance
    return (.property (.named (String.singleton letter)) negated ⟨start, rest.here⟩, rest)

/-- Whether a character can occur in the name of a boundary. -/
def isBoundaryChar (char : Char) : Bool := char.isAlpha || char = '-'

/-- Read the name of a boundary between braces, if that is what stands there; a repetition may look
alike. The cursor stands before the brace, if there is one. -/
def readBoundary (start : Location) (cursor : Cursor) :
    Except Complaint (Option Assertion × Cursor) := do
  if cursor.char? != some '\x7b' then return (none, cursor)
  let contents := cursor.advance
  match contents.char? with
  | none => contents.complainFrom start .boundaryUnfinished
  | some first =>
    if !isBoundaryChar first then return (none, cursor)
    let (chars, closing) := contents.takeWhile isBoundaryChar
    if closing.char? != some '\x7d' then closing.complainFrom cursor.here .boundaryUnclosed
    match boundary? (String.ofList chars) with
    | some assertion => return (some assertion, closing.skip)
    | none => closing.complainFrom contents.here .boundaryUnknown

/-- Read what a single character behind a backslash means. The cursor stands behind it. -/
def readSingle (start : Location) (char : Char) (cursor : Cursor) :
    Except Complaint (Tree × Cursor) := do
  let span : Span := ⟨start, cursor.here⟩
  if standsForItself char then return (.literal ⟨char, false, span⟩, cursor)
  match control? char, assertion? char with
  | some control, _ => return (.literal ⟨control, false, span⟩, cursor)
  | _, some .wordBoundary =>
    match ← readBoundary start cursor with
    | (some boundary, rest) => return (.assertion boundary ⟨start, rest.here⟩, rest)
    | (none, rest) => return (.assertion .wordBoundary span, rest)
  | _, some assertion => return (.assertion assertion span, cursor)
  | _, _ => Cursor.complain span .escapeUnknown

/-- Read an escape. The cursor stands before the backslash. -/
def read (cursor : Cursor) : Except Complaint (Tree × Cursor) := do
  let start := cursor.here
  let behind := cursor.skip
  match behind.char? with
  | none => behind.complainFrom start .escapeUnfinished
  | some char =>
    if char.isDigit then Cursor.complain ⟨start, behind.hereSpan.past⟩ .backreference
    match codeWidth? char, shorthand? char with
    | some width, _ =>
      let (literal, rest) ← readCode start char width behind
      return (.literal literal, rest)
    | _, some (set, negated) =>
      return (.shorthand set negated ⟨start, behind.skip.here⟩, behind.skip)
    | _, _ =>
      if char = 'p' || char = 'P' then readProperty start (char = 'P') behind
      else readSingle start char behind.skip

end OpLang.Pattern.Escape
