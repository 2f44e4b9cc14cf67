/-!
Decimal text of binary64 numbers.

Main definitions:
- `Decimal.shortest`: the fewest significant digits that read back to the same number, and of
  those the nearest.
- `Decimal.Style`: which of two equally near is taken, and how far positional notation goes.
- `Decimal.text`: positional with at least one digit after the point, or scientific.
-/
namespace Fulfilment.Decimal

set_option autoImplicit false

/-- A positive binary64 value `mantissa * 2 ^ exponent`. -/
structure Binary where
  mantissa : Nat
  exponent : Int
  /-- The next smaller value lies half as far away as the next larger one. -/
  atPower : Bool

/-- The magnitude of a finite number other than zero. -/
def Binary.ofBits (bits : UInt64) : Binary :=
  let fraction := (bits &&& 0xFFFFFFFFFFFFF).toNat
  let scale := (bits >>> 52 &&& 0x7FF).toNat
  if scale = 0 then ⟨fraction, -1074, false⟩
  else ⟨0x10000000000000 + fraction, (scale : Int) - 1075, decide (fraction = 0 ∧ 1 < scale)⟩

/-- The value and the two ends of the interval that rounds to it, as numerators over `den`. -/
structure Interval where
  low : Nat
  value : Nat
  high : Nat
  den : Nat
  /-- The two ends round to the value too. -/
  closed : Bool

def Binary.interval (b : Binary) : Interval :=
  let up := Nat.pow 2 (b.exponent - 2).toNat
  let below := if b.atPower then 1 else 2
  ⟨(4 * b.mantissa - below) * up, 4 * b.mantissa * up, (4 * b.mantissa + 2) * up,
    Nat.pow 2 (2 - b.exponent).toNat, b.mantissa % 2 = 0⟩

def digitCount (n : Nat) : Nat := (Nat.toDigits 10 n).length

/-- The exponent of the leading decimal digit of `num / den`. -/
def leadingExponent (num den : Nat) : Int :=
  if den ≤ num then (digitCount (num / den) : Int) - 1
  else -(digitCount ((den + num - 1) / num - 1) : Int)

/-- `n * 10 ^ exponent` as a numerator over `den * 10 ^ (-exponent)`. -/
def scaled (n : Nat) (exponent : Int) (den : Nat) : Nat := n * den * Nat.pow 10 exponent.toNat

def Interval.contains (i : Interval) (n : Nat) (exponent : Int) : Bool :=
  let x := scaled n exponent i.den
  let down := Nat.pow 10 (-exponent).toNat
  if i.closed then i.low * down ≤ x && x ≤ i.high * down
  else i.low * down < x && x < i.high * down

/-- Which of two neighbours is taken if both are equally near. -/
inductive Tie where
  /-- The one with an even last digit. -/
  | even
  /-- The larger one. -/
  | up
  deriving DecidableEq, Repr

/-- The multiple of `10 ^ exponent` next to the value that rounds to it, the nearer of two. -/
def Interval.nearest? (tie : Tie) (i : Interval) (exponent : Int) : Option Nat :=
  let down := Nat.pow 10 (-exponent).toNat
  let target := i.value * down
  let step := i.den * Nat.pow 10 exponent.toNat
  let n := target / step
  match i.contains n exponent, i.contains (n + 1) exponent with
  | false, false => none
  | true, false => some n
  | false, true => some (n + 1)
  | true, true =>
    let below := target - n * step
    let above := (n + 1) * step - target
    if below < above then some n
    else if above < below then some (n + 1)
    else if tie = .even ∧ n % 2 = 0 then some n
    else some (n + 1)

/-- Tries one more digit each time; seventeen digits always suffice. -/
def Interval.search (tie : Tie) (i : Interval) (leading : Int) : List Nat → Nat × Int
  | [] => (0, 0)
  | count :: more =>
    let exponent := leading - count
    match i.nearest? tie exponent with
    | some n => (n, exponent)
    | none => i.search tie leading more

def stripZeros : Nat → Nat → Int → Nat × Int
  | 0, n, e => (n, e)
  | fuel + 1, n, e => if n % 10 = 0 ∧ n ≠ 0 then stripZeros fuel (n / 10) (e + 1) else (n, e)

/-- Digits `n` and exponent `e` with `n * 10 ^ e` the shortest decimal of the number. -/
def shortest (tie : Tie) (b : Binary) : Nat × Int :=
  let i := b.interval
  let (n, e) := i.search tie (leadingExponent i.value i.den) (List.range 18)
  stripZeros 20 n e

def zeros (n : Nat) : String := String.ofList (List.replicate n '0')

/-- How the digits are chosen and laid out. -/
structure Style where
  tie : Tie
  /-- The least exponent of the leading digit that is written positionally. -/
  positionalFrom : Int
  /-- The exponent of the leading digit from which on notation is scientific. -/
  positionalTo : Int

/-- Diagnostics write numbers from `10 ^ -4` up to `10 ^ 16` positionally. -/
def Style.diagnostic : Style := ⟨.up, -4, 16⟩

def magnitude (style : Style) (n : Nat) (exponent : Int) : String :=
  let digits := Nat.toDigits 10 n
  let leading := exponent + digits.length - 1
  if style.positionalFrom ≤ leading ∧ leading < style.positionalTo then
    if leading < 0 then "0." ++ zeros (-leading - 1).toNat ++ String.ofList digits
    else
      let whole := leading.toNat + 1
      if digits.length ≤ whole then
        String.ofList digits ++ zeros (whole - digits.length) ++ ".0"
      else String.ofList (digits.take whole) ++ "." ++ String.ofList (digits.drop whole)
  else
    let tail := match digits.drop 1 with
      | [] => ""
      | rest => "." ++ String.ofList rest
    String.ofList (digits.take 1) ++ tail ++ "e" ++ toString leading

/-- Neither infinite nor without a value. -/
def isFinite (x : Float) : Bool := (x.toBits >>> 52 &&& 0x7FF) != 0x7FF

def text (style : Style) (x : Float) : String :=
  let sign := if x.toBits >>> 63 = 1 then "-" else ""
  let bits := x.toBits &&& 0x7FFFFFFFFFFFFFFF
  if isFinite x then
    if bits = 0 then sign ++ "0.0"
    else
      let (n, e) := shortest style.tie (.ofBits bits)
      sign ++ magnitude style n e
  else if bits = 0x7FF0000000000000 then sign ++ "inf"
  else "NaN"

end Fulfilment.Decimal
