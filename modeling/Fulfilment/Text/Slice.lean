/-!
Parts of a text by bytes of UTF-8.

Main definitions:
- `Text.byteCount`: how many bytes a text has.
- `Text.slice?`, `Text.sliceFrom?`: the part between two places, or from a place to the end, if
  both are places between characters.
-/
namespace Fulfilment.Text

set_option autoImplicit false

def byteCount : List Char → Nat
  | [] => 0
  | c :: rest => c.utf8Size + byteCount rest

/-- The text from byte `n` on. -/
def sliceFrom? : (n : Nat) → List Char → Option (List Char)
  | 0, s => some s
  | _ + 1, [] => none
  | n + 1, c :: rest => if c.utf8Size ≤ n + 1 then sliceFrom? (n + 1 - c.utf8Size) rest else none

/-- The first `n` bytes. -/
def sliceTo? : (n : Nat) → List Char → Option (List Char)
  | 0, _ => some []
  | _ + 1, [] => none
  | n + 1, c :: rest =>
    if c.utf8Size ≤ n + 1 then (sliceTo? (n + 1 - c.utf8Size) rest).map (c :: ·) else none

/-- The text from byte `start` up to byte `stop`, which is left out. -/
def slice? (start stop : Nat) (s : List Char) : Option (List Char) :=
  (sliceFrom? start s).bind (sliceTo? (stop - start))

end Fulfilment.Text
