import OpLang.Number.Shortest

/-! # Expressions

An expression is a number, a variable, a binary operator between two operands or a call. Its text is
fully parenthesised, so it shows how operands were grouped; grouping itself leaves no node.
-/

namespace OpLang

/-- Expressions of the language. -/
inductive Expr where
  | number (value : Binary64)
  | variable (name : String)
  | binary (operator : Char) (left right : Expr)
  | call (callee : String) (arguments : List Expr)
deriving Repr, Inhabited

namespace Expr

mutual

/-- The text of an expression: operators and calls are lists with their head first. -/
def text : Expr → String
  | .number value => value.text
  | .variable name => name
  | .binary operator left right =>
    "(" ++ String.singleton operator ++ " " ++ left.text ++ " " ++ right.text ++ ")"
  | .call callee arguments => "(call " ++ callee ++ argumentsText arguments ++ ")"

/-- The texts of arguments, each after a blank. -/
def argumentsText : List Expr → String
  | [] => ""
  | argument :: arguments => " " ++ argument.text ++ argumentsText arguments

end

instance : ToString Expr := ⟨text⟩

mutual

/-- Equality of expressions, in which numbers are compared by value. -/
def equals : Expr → Expr → Bool
  | .number left, .number right => left.equals right
  | .variable left, .variable right => left == right
  | .binary operator left right, .binary operator' left' right' =>
    operator == operator' && left.equals left' && right.equals right'
  | .call callee arguments, .call callee' arguments' =>
    callee == callee' && argumentsEqual arguments arguments'
  | _, _ => false

/-- Equality of argument lists, one argument after the other. -/
def argumentsEqual : List Expr → List Expr → Bool
  | [], [] => true
  | left :: lefts, right :: rights => left.equals right && argumentsEqual lefts rights
  | _, _ => false

end

end Expr

end OpLang
