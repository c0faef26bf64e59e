import Std.Data.TreeMap.Basic

/-! # Operators and other settings

Binary operators are single characters with a precedence each; a higher one binds tighter. An entry
makes its character an operator only if the character is ASCII and the precedence positive, so an
operator is taken away by giving it a precedence that is not positive.
-/

namespace OpLang

/-- The characters with an ASCII code. -/
def isAscii (char : Char) : Bool := char.toNat < 128

/-- A table of precedences, in the order of its characters. -/
structure Operators where
  table : Std.TreeMap Char Int32
deriving Inhabited

namespace Operators

/-- The table without entries. -/
def empty : Operators := ⟨∅⟩

/-- Enter a precedence, in place of one that the character may have. -/
def install (operators : Operators) (char : Char) (precedence : Int32) : Operators :=
  ⟨operators.table.insert char precedence⟩

/-- Enter precedences one after the other. -/
def installAll (operators : Operators) (entries : List (Char × Int32)) : Operators :=
  entries.foldl (fun operators (char, precedence) => operators.install char precedence) operators

/-- The entries in the order of their characters, those without effect included. -/
def entries (operators : Operators) : List (Char × Int32) := operators.table.toList

/-- The precedence of a character, if it is an operator. -/
def precedence? (operators : Operators) (char : Char) : Option Int32 :=
  if isAscii char then operators.table[char]?.filter (0 < ·) else none

/-- The operators of the language: comparison, sum and difference, product. -/
def standard : Operators := empty.installAll [('<', 10), ('+', 20), ('-', 20), ('*', 40)]

end Operators

/-- What the user decides about the language. -/
structure Settings where
  operators : Operators
  /-- Whether a prototype may repeat the name of a parameter. -/
  allowRepeatedParameters : Bool
deriving Inhabited

namespace Settings

/-- The language as it is without any wishes of the user. -/
def standard : Settings := ⟨.standard, true⟩

end Settings

end OpLang
