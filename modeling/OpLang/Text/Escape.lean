/-! # Escaped characters

A character that is shown inside quotes is written so that it takes one line, stays in printable
ASCII and cannot end the quotes early.
-/

namespace OpLang

/-- Printable ASCII, the blank included. -/
def isPrintable (char : Char) : Bool := ' ' ≤ char && char ≤ '~'

/-- The escaped form of a character: quotes, the backslash and the three common controls after a
backslash, other printable ASCII as it is, all else by its code point in hexadecimal. -/
def escape (char : Char) : List Char :=
  if char = '\t' then ['\\', 't']
  else if char = '\r' then ['\\', 'r']
  else if char = '\n' then ['\\', 'n']
  else if char = '\'' || char = '\"' || char = '\\' then ['\\', char]
  else if isPrintable char then [char]
  else ['\\', 'u', '\x7b'] ++ Nat.toDigits 16 char.toNat ++ ['\x7d']

end OpLang
