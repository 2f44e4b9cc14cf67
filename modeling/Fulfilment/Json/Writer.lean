import Fulfilment.Json.Basic
import Fulfilment.Decimal

/-!
Writing JSON text.

Main definitions:
- `Json.write`: one line, fields in their order, a number that is not finite as `null`.
- `Json.indented`: the same with one line per item and field.
-/
namespace Fulfilment.Json

set_option autoImplicit false

def hexDigit (n : Nat) : Char := if n < 10 then Char.ofNat (48 + n) else Char.ofNat (87 + n)

def writeChar (out : String) (c : Char) : String :=
  match c with
  | '"' => out ++ "\\\""
  | '\\' => out ++ "\\\\"
  | '\n' => out ++ "\\n"
  | '\r' => out ++ "\\r"
  | '\t' => out ++ "\\t"
  | c =>
    if c.toNat < 32 then ((out ++ "\\u00").push (hexDigit (c.toNat / 16))).push (hexDigit (c.toNat % 16))
    else out.push c

def writeText (out : String) (s : String) : String :=
  (s.toList.foldl writeChar (out.push '"')).push '"'

/-- Numbers from `10 ^ -5` up to `10 ^ 16` stand in positional notation. -/
def numberStyle : Decimal.Style := ⟨.even, -5, 16⟩

def writeReal (x : Float) : String :=
  if Decimal.isFinite x then Decimal.text numberStyle x else "null"

mutual

/-- Appends the text of a value to `out`. -/
def writeOn (out : String) : Json → String
  | .null => out ++ "null"
  | .bool b => out ++ (if b then "true" else "false")
  | .integer n => out ++ toString n
  | .real x => out ++ writeReal x
  | .text s => writeText out s
  | .array items => (writeItems (out.push '[') "" items).push ']'
  | .object fields => (writeFields (out.push '\x7b') "" fields).push '\x7d'

def writeItems (out : String) (separator : String) : List Json → String
  | [] => out
  | v :: rest => writeItems (writeOn (out ++ separator) v) "," rest

def writeFields (out : String) (separator : String) : List (String × Json) → String
  | [] => out
  | (name, v) :: rest =>
    writeFields (writeOn ((writeText (out ++ separator) name).push ':') v) "," rest

end

def write (v : Json) : String := writeOn "" v

/-! ## Several lines -/

def margin (depth : Nat) : String := String.ofList ('\n' :: List.replicate (2 * depth) ' ')

mutual

/-- Appends the text of a value with one line per item and field, indented by two blanks. -/
def indentOn (depth : Nat) (out : String) : Json → String
  | .array [] => out ++ "[]"
  | .object [] => out ++ "\x7b\x7d"
  | .array items => (indentItems (depth + 1) (out.push '[') "" items ++ margin depth).push ']'
  | .object fields =>
    (indentFields (depth + 1) (out.push '\x7b') "" fields ++ margin depth).push '\x7d'
  | v => writeOn out v

def indentItems (depth : Nat) (out : String) (separator : String) : List Json → String
  | [] => out
  | v :: rest => indentItems depth (indentOn depth (out ++ separator ++ margin depth) v) "," rest

def indentFields (depth : Nat) (out : String) (separator : String) : List (String × Json) → String
  | [] => out
  | (name, v) :: rest =>
    indentFields depth
      (indentOn depth (writeText (out ++ separator ++ margin depth) name ++ ": ") v) "," rest

end

def indented (v : Json) : String := indentOn 0 "" v

end Fulfilment.Json
