import Fulfilment.Log.Remark
import Fulfilment.Text.Blank
import Fulfilment.Json.Basic
import Fulfilment.Timestamp

/-!
How the log is shown.

Main definitions:
- `LogFormat`: one JSON object per entry, or words; JSON unless words are asked for.
- `LogLine`: a remark with its time and thread.
-/
namespace Fulfilment

set_option autoImplicit false

/-! ## Format -/

inductive LogFormat where
  | json
  | pretty
  deriving DecidableEq, Repr, Inhabited

namespace LogFormat

def label : LogFormat → String
  | .json => "Json"
  | .pretty => "Pretty"

def byDefault : LogFormat := .json

/-- The word `pretty` in any case, with blanks around it allowed, asks for words. -/
def read : Option String → LogFormat
  | none => .json
  | some s => if Text.asciiLower (Text.trim s) = "pretty" then .pretty else .json

end LogFormat

/-! ## Lines -/

structure LogLine where
  time : Instant
  thread : String
  remark : Remark

namespace LogLine

def entry (l : LogLine) : Entry := l.remark.entry

def valueJson : FieldValue → Json
  | .text s => .text s
  | .whole n => .ofNat n
  | .real x => .real x
  | .id tx => .text tx.text

/-- The words stand under `message`, unless a field has that name. -/
def fieldsJson (e : Entry) : Json :=
  let fields := e.fields.map fun (name, value) => (name, valueJson value)
  if e.fields.any (·.1 = "message") then .object fields
  else .object (("message", .text e.text) :: fields)

def toJson (l : LogLine) : Json :=
  .object [("timestamp", .text (Timestamp.ofInstant l.time).text), ("level", .text l.entry.level.name),
    ("fields", fieldsJson l.entry), ("threadName", .text l.thread)]

def words (l : LogLine) : String :=
  (Timestamp.ofInstant l.time).text ++ " " ++ l.entry.level.name ++ " " ++ l.thread ++ " " ++
    l.entry.text ++ String.join (l.entry.fields.map fun (name, value) =>
      " " ++ name ++ "=" ++ value.words)

end LogLine
end Fulfilment
