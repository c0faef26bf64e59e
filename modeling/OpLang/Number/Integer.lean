/-! # Signed 32-bit integers in decimal

An integer is one or more digits after at most one sign. Digits are read from the left, and the
first one that is no digit or leads out of range decides what is wrong.
-/

namespace OpLang

/-- Why a text is no integer. -/
inductive IntegerFault where
  | empty
  | invalidDigit
  | tooLarge
  | tooSmall
deriving DecidableEq, Repr, Inhabited

namespace IntegerFault

/-- The wording of a fault. -/
def text : IntegerFault → String
  | empty => "cannot parse integer from empty string"
  | invalidDigit => "invalid digit found in string"
  | tooLarge => "number too large to fit in target type"
  | tooSmall => "number too small to fit in target type"

end IntegerFault

/-- Read digits behind a number already read, as long as it does not exceed a bound. -/
def boundedDigits (bound : Nat) (excess : IntegerFault) (number : Nat) :
    List Char → Except IntegerFault Nat
  | [] => .ok number
  | char :: chars =>
    if !char.isDigit then .error .invalidDigit
    else
      let longer := 10 * number + (char.toNat - '0'.toNat)
      if bound < longer then .error excess else boundedDigits bound excess longer chars

/-- Read the digits of a number that is not negative. -/
def positiveInt32 (digits : List Char) : Except IntegerFault Int32 :=
  (boundedDigits (Nat.pow 2 31 - 1) .tooLarge 0 digits).map fun number => Int32.ofInt number

/-- Read the digits behind a minus sign. -/
def negativeInt32 (digits : List Char) : Except IntegerFault Int32 :=
  (boundedDigits (Nat.pow 2 31) .tooSmall 0 digits).map fun number => Int32.ofInt (-number)

/-- Read an integer. A sign with nothing behind it is an invalid digit. -/
def parseInt32 : List Char → Except IntegerFault Int32
  | [] => .error .empty
  | ['+'] => .error .invalidDigit
  | ['-'] => .error .invalidDigit
  | '+' :: digits => positiveInt32 digits
  | '-' :: digits => negativeInt32 digits
  | digits => positiveInt32 digits

end OpLang
