/-!
Sets of code points as ranges.

Main definitions:
- `Text.Ranges`: first and last code point of each range, in ascending order.
- `Text.Ranges.contains`: membership, by bisection.
-/
namespace Fulfilment.Text

set_option autoImplicit false

abbrev Ranges := Array (Nat × Nat)

namespace Ranges

/-- Whether `n` lies in one of the ranges from place `low` up to place `high`, which is left out. -/
def containsFrom (r : Ranges) (n : Nat) : (fuel low high : Nat) → Bool
  | 0, _, _ => false
  | fuel + 1, low, high =>
    if high ≤ low then false
    else
      let mid := (low + high) / 2
      match r[mid]? with
      | none => false
      | some (first, last) =>
        if n < first then containsFrom r n fuel low mid
        else if last < n then containsFrom r n fuel (mid + 1) high
        else true

/-- Each step halves what is left to search. -/
def contains (r : Ranges) (n : Nat) : Bool := containsFrom r n (r.size.log2 + 2) 0 r.size

end Ranges
end Fulfilment.Text
