/-!
White space as the Unicode property `White_Space` has it.

Main definitions:
- `Text.isBlank`
- `Text.trim`: a text without the blanks at its two ends.
-/
namespace Fulfilment.Text

set_option autoImplicit false

def isBlank (c : Char) : Bool :=
  let n := c.toNat
  (9 ≤ n && n ≤ 13) || n == 0x20 || n == 0x85 || n == 0xa0 || n == 0x1680 ||
    (0x2000 ≤ n && n ≤ 0x200a) || n == 0x2028 || n == 0x2029 || n == 0x202f || n == 0x205f ||
    n == 0x3000

def trimList (cs : List Char) : List Char :=
  ((cs.dropWhile isBlank).reverse.dropWhile isBlank).reverse

def trim (s : String) : String := String.ofList (trimList s.toList)

/-- The text with the letters `A` to `Z` made small and all else kept. -/
def asciiLower (s : String) : String := String.ofList (s.toList.map Char.toLower)

end Fulfilment.Text
