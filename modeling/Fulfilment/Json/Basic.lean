/-!
JSON values.

Main definitions:
- `Json`: integers and reals are told apart by how they were written, so `1` is not `1.0`.
- `Json.field?`: a field of an object; when a name occurs twice the later field counts.
-/
namespace Fulfilment

set_option autoImplicit false

inductive Json where
  | null
  | bool (b : Bool)
  | integer (n : Int)
  | real (x : Float)
  | text (s : String)
  | array (items : List Json)
  | object (fields : List (String × Json))

instance : Inhabited Json := ⟨.null⟩

namespace Json

/-- The last field of the given name, `none` outside objects. -/
def field? (name : String) : Json → Option Json
  | .object fields => fields.reverse.lookup name
  | _ => none

def text? : Json → Option String
  | .text s => some s
  | _ => none

def bool? : Json → Option Bool
  | .bool b => some b
  | _ => none

def nat? : Json → Option Nat
  | .integer (.ofNat n) => some n
  | _ => none

def int? : Json → Option Int
  | .integer n => some n
  | _ => none

def items? : Json → Option (List Json)
  | .array items => some items
  | _ => none

/-- Any number, an integer rounded to the nearest binary64 value. -/
def float? : Json → Option Float
  | .integer n => some (if n < 0 then -(Float.ofNat n.natAbs) else Float.ofNat n.natAbs)
  | .real x => some x
  | _ => none

def ofNat (n : Nat) : Json := .integer n

/-- `null` stands for nothing. -/
def ofOption {α : Type} (encode : α → Json) : Option α → Json
  | none => .null
  | some a => encode a

end Json
end Fulfilment
