import Fulfilment.Text.Hidden

/-!
Texts in quotation marks, as diagnostics show them.

Main definitions:
- `Text.quote`: a quote, a backslash and the common controls get a short escape, every other
  hidden character its code point in hexadecimal; all else stands as it is.
-/
namespace Fulfilment.Text

set_option autoImplicit false

def quoteChar (c : Char) : List Char :=
  match c with
  | '"' => ['\\', '"']
  | '\\' => ['\\', '\\']
  | '\n' => ['\\', 'n']
  | '\r' => ['\\', 'r']
  | '\t' => ['\\', 't']
  | '\x00' => ['\\', '0']
  | c =>
    if isHidden c then ['\\', 'u', '\x7b'] ++ Nat.toDigits 16 c.toNat ++ ['\x7d']
    else [c]

def quote (s : String) : String :=
  String.ofList ('"' :: (s.toList.flatMap quoteChar ++ ['"']))

end Fulfilment.Text
