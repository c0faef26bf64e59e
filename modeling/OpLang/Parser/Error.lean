import OpLang.Token

/-! # Parse errors

A parse error says what was expected and which token stood in its place. A repeated parameter is an
error too where the settings forbid it.
-/

namespace OpLang

/-- What the parser was looking for. -/
inductive Expectation where
  | expression
  | closingParenthesis
  | argumentEnd
  | functionName
  | parameters
  | parametersEnd
deriving DecidableEq, Repr, Inhabited

namespace Expectation

/-- The complaint about a token that does not meet an expectation. -/
def complaint : Expectation → String
  | expression => "unknown token when expecting an expression"
  | closingParenthesis => "expected ')'"
  | argumentEnd => "Expected ')' or ',' in argument list"
  | functionName => "Expected function name in prototype"
  | parameters => "Expected '(' in prototype"
  | parametersEnd => "Expected ')' in prototype"

end Expectation

/-- Why parsing stopped. -/
inductive ParseFault where
  | unexpected (wanted : Expectation) (found : Token)
  | repeatedParameter (name : String)
deriving DecidableEq, Repr, Inhabited

namespace ParseFault

/-- The wording of a fault, without its place. -/
def text : ParseFault → String
  | unexpected wanted _ => wanted.complaint
  | repeatedParameter name => "duplicate parameter '" ++ name ++ "' in prototype"

instance : ToString ParseFault := ⟨text⟩

end ParseFault

/-- A fault and where it was found. -/
structure ParseError where
  fault : ParseFault
  location : Location
deriving DecidableEq, Repr, Inhabited

namespace ParseError

/-- The wording of an error. -/
def text (error : ParseError) : String :=
  error.fault.text ++ " (at " ++ error.location.text ++ ")"

instance : ToString ParseError := ⟨text⟩

end ParseError

end OpLang
