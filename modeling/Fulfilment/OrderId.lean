import Fulfilment.Text.Quoted

/-!
Order ids.

Main definitions:
- `OrderId.read`: one or more ASCII letters and digits.
-/
namespace Fulfilment

set_option autoImplicit false

structure OrderId where
  text : String
  deriving DecidableEq, Repr, Inhabited

namespace OrderId

inductive Fault where
  | notAlphanumeric (text : String)
  deriving DecidableEq, Repr

def Fault.message : Fault → String
  | .notAlphanumeric text => "invalid identifier: OrderId: " ++ Text.quote text

def read (s : String) : Except Fault OrderId :=
  if s.toList ≠ [] ∧ s.toList.all Char.isAlphanum then .ok ⟨s⟩ else .error (.notAlphanumeric s)

/-- The form diagnostics show. -/
def diagnostic (id : OrderId) : String := "OrderId(" ++ Text.quote id.text ++ ")"

end OrderId
end Fulfilment
