/-!
Keyed records that are never overwritten.

Main definitions:
- `Records`: the records in the order of their insertion.
- `Records.insertIfAbsent`
- `Records.insertFresh?`: stores a record under the first key of a stream that is not taken.
-/
namespace Fulfilment

set_option autoImplicit false

structure Records (κ ν : Type) where
  entries : List (κ × ν) := []

namespace Records

variable {κ ν : Type} [DecidableEq κ]

instance : Inhabited (Records κ ν) := ⟨{}⟩

def get? (r : Records κ ν) (k : κ) : Option ν := r.entries.lookup k

def contains (r : Records κ ν) (k : κ) : Bool := (r.get? k).isSome

def size (r : Records κ ν) : Nat := r.entries.length

def values (r : Records κ ν) : List ν := r.entries.map (·.2)

def push (r : Records κ ν) (k : κ) (v : ν) : Records κ ν := ⟨r.entries ++ [(k, v)]⟩

/-- Whether the key was free, and the records with something stored under it. -/
def insertIfAbsent (r : Records κ ν) (k : κ) (v : ν) : Bool × Records κ ν :=
  if r.contains k then (false, r) else (true, r.push k v)

/-- The position of the first key not taken among `tries` keys of the stream from `start` on. -/
def freshIndex? (r : Records κ ν) (mint : Nat → κ) : (tries start : Nat) → Option Nat
  | 0, _ => none
  | tries + 1, start =>
    if r.contains (mint start) then freshIndex? r mint tries (start + 1) else some start

/-- The records with a new one under the first free key of the stream, and its position there. -/
def insertFresh? (r : Records κ ν) (mint : Nat → κ) (tries : Nat) (build : κ → ν) :
    Option (Nat × Records κ ν) :=
  (r.freshIndex? mint tries 0).map fun i => (i, r.push (mint i) (build (mint i)))

end Records
end Fulfilment
