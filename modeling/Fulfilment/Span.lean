/-!
Lengths of time in whole nanoseconds.

Main definitions:
- `Span`
- `Span.wholeMillis`: full milliseconds, at most `Span.maxMillis`; the form settings are stored in.
- `Span.text`: an exact decimal in the largest unit that is not below one.
-/
namespace Fulfilment

set_option autoImplicit false

/-- A number of nanoseconds. -/
abbrev Span := Nat

namespace Span

def ofMillis (ms : Nat) : Span := ms * 1000000

def ofSecs (s : Nat) : Span := s * 1000000000

/-- The largest count of milliseconds that fits 64 bits. -/
def maxMillis : Nat := UInt64.size - 1

def wholeMillis (d : Span) : Nat := min (d / 1000000) maxMillis

/-- Without the zeros at the end. -/
def dropZeros (cs : List Char) : List Char :=
  (cs.reverse.dropWhile (· == '0')).reverse

/-- The digits of `n` with zeros in front up to the given width. -/
def padded (width n : Nat) : List Char :=
  let digits := Nat.toDigits 10 n
  List.replicate (width - digits.length) '0' ++ digits

/-- `d` in units of `10 ^ places` nanoseconds. -/
def inUnits (places : Nat) (d : Span) : String :=
  let unit := Nat.pow 10 places
  let whole := toString (d / unit)
  match dropZeros (padded places (d % unit)) with
  | [] => whole
  | fraction => whole ++ "." ++ String.ofList fraction

def text (d : Span) : String :=
  if 1000000000 ≤ d then inUnits 9 d ++ "s"
  else if 1000000 ≤ d then inUnits 6 d ++ "ms"
  else if 1000 ≤ d then inUnits 3 d ++ "µs"
  else toString d ++ "ns"

end Span
end Fulfilment
