import Fulfilment.Json.Basic
import Fulfilment.Text.Numeral

/-!
Reading JSON text.

Main definitions:
- `Json.read?`: the value a whole text stands for.

A number without point and exponent is an integer if it fits 64 bits (signed or unsigned); every
other number, `-0` included, is a real.
-/
namespace Fulfilment.Json

open Text.Numeral (hexDigit?)

set_option autoImplicit false

def skipBlank : List Char → List Char
  | [] => []
  | c :: rest => if c = ' ' ∨ c = '\t' ∨ c = '\n' ∨ c = '\r' then skipBlank rest else c :: rest

/-! ## Texts -/

/-- The 16-bit unit of four hexadecimal digits. -/
def unit? (a b c d : Char) : Option Nat := do
  let a ← hexDigit? a
  let b ← hexDigit? b
  let c ← hexDigit? c
  let d ← hexDigit? d
  pure (((a * 16 + b) * 16 + c) * 16 + d)

def plainEscape? : Char → Option Char
  | '"' => some '"'
  | '\\' => some '\\'
  | '/' => some '/'
  | 'b' => some '\x08'
  | 'f' => some '\x0c'
  | 'n' => some '\n'
  | 'r' => some '\r'
  | 't' => some '\t'
  | _ => none

/-- Reads to the closing quote; `done` holds the characters read so far, the last one first. -/
def readText (done : List Char) : List Char → Option (String × List Char)
  | [] => none
  | '"' :: rest => some (String.ofList done.reverse, rest)
  | '\\' :: 'u' :: a :: b :: c :: d :: rest =>
    match unit? a b c d with
    | none => none
    | some high =>
      if 0xD800 ≤ high ∧ high < 0xDC00 then
        match rest with
        | '\\' :: 'u' :: e :: f :: g :: h :: rest =>
          match unit? e f g h with
          | none => none
          | some low =>
            readText (Char.ofNat (0x10000 + (high - 0xD800) * 0x400 + (low - 0xDC00)) :: done) rest
        | _ => none
      else readText (Char.ofNat high :: done) rest
  | '\\' :: c :: rest =>
    match plainEscape? c with
    | none => none
    | some c => readText (c :: done) rest
  | c :: rest => readText (c :: done) rest

/-! ## Numbers -/

def natOfDigits (digits : List Char) : Nat :=
  digits.foldl (fun n c => n * 10 + (c.toNat - 48)) 0

/-- `digits * 10 ^ exponent`, rounded to the nearest binary64 value; what lies far outside its range
is zero or infinite. -/
def realOf (negative : Bool) (digits : Nat) (exponent : Int) : Float :=
  let leading := exponent + (Nat.toDigits 10 digits).length
  let x : Float :=
    if digits = 0 ∨ leading < -400 then 0.0
    else if 400 < leading then 1.0 / 0.0
    else Float.ofScientific digits (decide (exponent < 0)) exponent.natAbs
  if negative then -x else x

def readExponent : List Char → Option Int
  | [] => some 0
  | '+' :: digits => if digits.isEmpty ∨ ¬ digits.all Char.isDigit then none else some (natOfDigits digits)
  | '-' :: digits =>
    if digits.isEmpty ∨ ¬ digits.all Char.isDigit then none else some (-(natOfDigits digits : Int))
  | digits => if digits.all Char.isDigit then some (natOfDigits digits) else none

def readUnsigned (negative : Bool) (cs : List Char) : Option Json :=
  let whole := cs.takeWhile Char.isDigit
  if whole.isEmpty then none
  else
    match cs.dropWhile Char.isDigit with
    | [] =>
      let n := natOfDigits whole
      if negative then
        if n = 0 ∨ UInt64.size < 2 * n then some (.real (realOf true n 0)) else some (.integer (-(n : Int)))
      else if n < UInt64.size then some (.integer n)
      else some (.real (realOf false n 0))
    | '.' :: rest =>
      let fraction := rest.takeWhile Char.isDigit
      if fraction.isEmpty then none
      else
        match rest.dropWhile Char.isDigit with
        | [] => some (.real (realOf negative (natOfDigits (whole ++ fraction)) (-(fraction.length : Int))))
        | e :: tail =>
          if (e = 'e' ∨ e = 'E') ∧ ¬ tail.isEmpty then
            (readExponent tail).map fun x =>
              .real (realOf negative (natOfDigits (whole ++ fraction)) (x - fraction.length))
          else none
    | e :: tail =>
      if (e = 'e' ∨ e = 'E') ∧ ¬ tail.isEmpty then
        (readExponent tail).map fun x => .real (realOf negative (natOfDigits whole) x)
      else none

def readNumber : List Char → Option Json
  | '-' :: cs => readUnsigned true cs
  | cs => readUnsigned false cs

def inNumber (c : Char) : Bool :=
  c.isDigit || c == '-' || c == '+' || c == '.' || c == 'e' || c == 'E'

/-! ## Values -/

mutual

/-- Reads one value and returns what follows it; `depth` bounds the values and separators read. -/
def readValue : Nat → List Char → Option (Json × List Char)
  | 0, _ => none
  | depth + 1, cs =>
    match skipBlank cs with
    | '{' :: rest =>
      match skipBlank rest with
      | '}' :: rest => some (.object [], rest)
      | rest => readFields depth [] rest
    | '[' :: rest =>
      match skipBlank rest with
      | ']' :: rest => some (.array [], rest)
      | rest => readItems depth [] rest
    | '"' :: rest => (readText [] rest).map fun (s, rest) => (.text s, rest)
    | 't' :: 'r' :: 'u' :: 'e' :: rest => some (.bool true, rest)
    | 'f' :: 'a' :: 'l' :: 's' :: 'e' :: rest => some (.bool false, rest)
    | 'n' :: 'u' :: 'l' :: 'l' :: rest => some (.null, rest)
    | cs => (readNumber (cs.takeWhile inNumber)).map fun v => (v, cs.dropWhile inNumber)

def readItems : Nat → List Json → List Char → Option (Json × List Char)
  | 0, _, _ => none
  | depth + 1, done, cs =>
    match readValue depth cs with
    | none => none
    | some (v, rest) =>
      match skipBlank rest with
      | ',' :: rest => readItems depth (v :: done) rest
      | ']' :: rest => some (.array (v :: done).reverse, rest)
      | _ => none

def readFields : Nat → List (String × Json) → List Char → Option (Json × List Char)
  | 0, _, _ => none
  | depth + 1, done, cs =>
    match skipBlank cs with
    | '"' :: rest =>
      match readText [] rest with
      | none => none
      | some (name, rest) =>
        match skipBlank rest with
        | ':' :: rest =>
          match readValue depth rest with
          | none => none
          | some (v, rest) =>
            match skipBlank rest with
            | ',' :: rest => readFields depth ((name, v) :: done) rest
            | '}' :: rest => some (.object ((name, v) :: done).reverse, rest)
            | _ => none
        | _ => none
    | _ => none

end

def read? (s : String) : Option Json :=
  let cs := s.toList
  match readValue (2 * cs.length + 2) cs with
  | some (v, rest) => if (skipBlank rest).isEmpty then some v else none
  | none => none

end Fulfilment.Json
