import Fulfilment.OrderId
import Fulfilment.Draws

/-!
Fresh order ids.

Main definitions:
- `Register`: the ids already handed out or reserved; several allocators may share one.
- `Allocator.candidate`: an id spelled by random draws.
- `Allocator.allocate?`: candidates are drawn until one is not in the register, which then holds
  it.
-/
namespace Fulfilment

set_option autoImplicit false

/-- The texts in use, without repetition, the latest first. -/
structure Register where
  used : List String := []
  deriving Repr, Inhabited

namespace Register

def size (r : Register) : Nat := r.used.length

def contains (r : Register) (id : String) : Bool := r.used.contains id

/-- Whether the text was free, and the register with the text in use. -/
def reserve (r : Register) (id : String) : Bool × Register :=
  if r.contains id then (false, r) else (true, ⟨id :: r.used⟩)

end Register

structure Allocator where
  length : Nat := 12
  length_pos : 0 < length := by decide

namespace Allocator

/-- Ids of twelve characters. -/
def standard : Allocator := {}

instance : Inhabited Allocator := ⟨standard⟩

/-- An allocator of ids of the given length, at least one. -/
def ofLength (n : Nat) : Allocator := ⟨max n 1, by omega⟩

def alphabet : List Char := "ABCDEFGHIJKLMNOPQRSTUVWXYZ1234567890".toList

def letter (n : Nat) : Char := alphabet.getD n 'A'

/-- One draw per letter. -/
def letters : Nat → Draws → List Char × Draws
  | 0, d => ([], d)
  | n + 1, d =>
    let (i, d) := d.below alphabet.length
    let (rest, d) := letters n d
    (letter i :: rest, d)

def candidate (a : Allocator) (d : Draws) : String × Draws :=
  let (cs, d) := letters a.length d
  (String.ofList cs, d)

/-- Looks at `tries` candidates at most. -/
def allocate? (a : Allocator) : (tries : Nat) → Register → Draws → Option (OrderId × Register × Draws)
  | 0, _, _ => none
  | tries + 1, r, d =>
    let (id, d) := a.candidate d
    match r.reserve id with
    | (true, r) => some (⟨id⟩, r, d)
    | (false, r) => allocate? a tries r d

/-- More candidates than the generator has states. -/
def patience : Nat := 2 * Draws.states

/-- The form diagnostics show, for an allocator of this register. -/
def diagnostic (a : Allocator) (r : Register) : String :=
  "IdAllocator \x7b length: " ++ toString a.length ++ ", allocated: " ++ toString r.size ++ " \x7d"

end Allocator
end Fulfilment
