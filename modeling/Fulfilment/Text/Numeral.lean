/-!
Numbers as they are written.

Main definitions:
- `Text.Numeral.read`: an optional plus sign and at least one digit, with a value below a limit.
- `Text.Numeral.isReal`: whether a text is a number with sign, fraction and exponent.
- `Text.Numeral.Fault`: why a text is no such number; reading goes from left to right and stops at
  the first fault.
-/
namespace Fulfilment.Text.Numeral

set_option autoImplicit false

inductive Fault where
  | empty
  | invalidDigit
  | tooLarge
  deriving DecidableEq, Repr

def Fault.message : Fault → String
  | .empty => "cannot parse integer from empty string"
  | .invalidDigit => "invalid digit found in string"
  | .tooLarge => "number too large to fit in target type"

def digit? (c : Char) : Option Nat :=
  if '0' ≤ c ∧ c ≤ '9' then some (c.toNat - 48) else none

/-- The value of a hexadecimal digit, small or capital. -/
def hexDigit? (c : Char) : Option Nat :=
  if '0' ≤ c ∧ c ≤ '9' then some (c.toNat - 48)
  else if 'a' ≤ c ∧ c ≤ 'f' then some (c.toNat - 87)
  else if 'A' ≤ c ∧ c ≤ 'F' then some (c.toNat - 55)
  else none

/-- Continues a number that has the value `n` so far. -/
def readDigits (limit : Nat) (n : Nat) : List Char → Except Fault Nat
  | [] => .ok n
  | c :: rest =>
    match digit? c with
    | none => .error .invalidDigit
    | some d =>
      if n * 10 + d < limit then readDigits limit (n * 10 + d) rest else .error .tooLarge

def readList (limit : Nat) : List Char → Except Fault Nat
  | [] => .error .empty
  | ['+'] => .error .invalidDigit
  | '+' :: rest => readDigits limit 0 rest
  | cs => readDigits limit 0 cs

def read (limit : Nat) (s : String) : Except Fault Nat := readList limit s.toList

/-! ## Real numbers -/

def isDigit (c : Char) : Bool := (digit? c).isSome

def dropSign : List Char → List Char
  | '+' :: rest => rest
  | '-' :: rest => rest
  | s => s

def isDigits (s : List Char) : Bool := !s.isEmpty && s.all isDigit

/-- Nothing, or the letter `e` and a whole number. -/
def isExponent : List Char → Bool
  | [] => true
  | 'e' :: rest => isDigits (dropSign rest)
  | 'E' :: rest => isDigits (dropSign rest)
  | _ => false

/-- Digits with a point among them, before them or after them, and an exponent. -/
def isUnsignedReal (s : List Char) : Bool :=
  let rest := s.dropWhile isDigit
  match s.takeWhile isDigit, rest with
  | [], '.' :: rest => !(rest.takeWhile isDigit).isEmpty && isExponent (rest.dropWhile isDigit)
  | [], _ => false
  | _, '.' :: rest => isExponent (rest.dropWhile isDigit)
  | _, rest => isExponent rest

/-- Infinity and what is not a number have names, in any case. -/
def isReal (s : List Char) : Bool :=
  let s := dropSign s
  isUnsignedReal s ||
    ["inf", "infinity", "nan"].contains (String.ofList (s.map Char.toLower))

end Fulfilment.Text.Numeral
