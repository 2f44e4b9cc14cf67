import Fulfilment.Json.Basic

/-!
Records and enumerations as JSON.

Main definitions:
- `Json.members?`: the fields of a record, from an object with field names (others are passed over)
  or from an array in the order of the names.
- `Json.choice?`: a name, alone or as the only field of an object with value `null`.
-/
namespace Fulfilment.Json

set_option autoImplicit false

/-- One entry per name, `none` for a field that is not there; an array may leave out the last
`optional` fields. -/
def members? (names : List String) (optional : Nat) : Json → Option (List (Option Json))
  | .object fields => some (names.map fun name => (Json.object fields).field? name)
  | .array items =>
    if names.length ≤ items.length + optional ∧ items.length ≤ names.length then
      some (items.map some ++ List.replicate (names.length - items.length) none)
    else none
  | _ => none

def choice? : Json → Option String
  | .text s => some s
  | .object [(name, .null)] => some name
  | _ => none

/-- An integer below `limit`. -/
def natBelow? (limit : Nat) (v : Json) : Option Nat := v.nat?.filter (· < limit)

/-- Nothing for `null` and for a field that is not there. -/
def nullable? {α : Type} (decode : Json → Option α) : Option Json → Option (Option α)
  | none => some none
  | some .null => some none
  | some v => (decode v).map some

end Fulfilment.Json
