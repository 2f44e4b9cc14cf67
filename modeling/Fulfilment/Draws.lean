/-!
Random draws.

Main definitions:
- `Draws`: scripted draws first, then those of a linear congruential generator.
- `Draws.below`: the next draw, reduced below a bound.
-/
namespace Fulfilment

set_option autoImplicit false

structure Draws where
  script : List Nat := []
  seed : Nat := 1
  deriving Repr, Inhabited

namespace Draws

/-- The state of the generator has 31 bits. -/
def states : Nat := 0x80000000

def advance (seed : Nat) : Nat := (seed * 1103515245 + 12345) % states

/-- The next scripted draw; then the upper 15 bits of the generator's next state. -/
def next (d : Draws) : Nat × Draws :=
  match d.script with
  | n :: rest => (n, { d with script := rest })
  | [] =>
    let seed := advance d.seed
    (seed / 0x10000, { d with seed })

def below (bound : Nat) (d : Draws) : Nat × Draws :=
  let (n, d) := d.next
  (n % bound, d)

end Draws
end Fulfilment
