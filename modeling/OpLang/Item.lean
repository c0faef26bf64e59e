import OpLang.Expr

/-! # Top-level items

A program is a sequence of items. An item declares a function by its prototype, defines one, or is a
bare expression, which counts as the body of a function of its own with a reserved name.
-/

namespace OpLang

/-- The name and the parameters of a function. -/
structure Prototype where
  name : String
  parameters : List String
deriving DecidableEq, Repr, Inhabited

namespace Prototype

/-- The name of the function around a bare expression; no word of the language spells it. -/
def anonymousName : String := "__anon_expr"

/-- The prototype of the function around a bare expression. -/
def anonymous : Prototype := ⟨anonymousName, []⟩

/-- The text of a prototype: the name, then the parameters in parentheses. -/
def text (prototype : Prototype) : String :=
  prototype.name ++ "(" ++ " ".intercalate prototype.parameters ++ ")"

instance : ToString Prototype := ⟨text⟩

end Prototype

/-- A function: its prototype and the expression it computes. -/
structure Function where
  prototype : Prototype
  body : Expr
deriving Repr, Inhabited

namespace Function

/-- The function around a bare expression. -/
def ofExpr (body : Expr) : Function := ⟨.anonymous, body⟩

/-- Whether the function stands for a bare expression. -/
def isAnonymous (function : Function) : Bool :=
  function.prototype.name == Prototype.anonymousName

/-- The text of a function. -/
def text (function : Function) : String :=
  "(def " ++ function.prototype.text ++ " " ++ function.body.text ++ ")"

instance : ToString Function := ⟨text⟩

/-- Equality of functions, in which numbers are compared by value. -/
def equals (left right : Function) : Bool :=
  left.prototype == right.prototype && left.body.equals right.body

end Function

/-- An item of a program. -/
inductive Item where
  | declaration (prototype : Prototype)
  | function (defined : Function)
deriving Repr, Inhabited

namespace Item

/-- The text of an item. -/
def text : Item → String
  | declaration prototype => "(extern " ++ prototype.text ++ ")"
  | function defined => defined.text

instance : ToString Item := ⟨text⟩

/-- Equality of items, in which numbers are compared by value. -/
def equals : Item → Item → Bool
  | declaration left, declaration right => left == right
  | function left, function right => left.equals right
  | _, _ => false

end Item

/-- The kinds of items, told apart by their first token. -/
inductive ItemKind where
  | definition
  | declaration
  | expression
deriving DecidableEq, Repr, Inhabited

end OpLang
