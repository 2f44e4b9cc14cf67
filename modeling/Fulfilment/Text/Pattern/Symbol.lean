import Fulfilment.Text.Blank
import Fulfilment.Text.Numeral

/-!
Symbols of a pattern: what is matched by one character or at one place.

Main definitions:
- `Pattern.Mode`: how symbols are read and what they mean.
- `Pattern.readEscape`: the symbol after a backslash.
- `Pattern.Symbol.isMatchable`, `Pattern.Symbol.isMember`: whether an automaton over UTF-8 that
  knows no table of Unicode properties can match a symbol, alone and in a bracketed set.
-/
namespace Fulfilment.Text.Pattern

set_option autoImplicit false

structure Mode where
  /-- A letter matches in either case. -/
  caseless : Bool := false
  /-- Symbols stand for characters; without it they stand for bytes. -/
  unicode : Bool := true
  /-- Blanks and comments are left out. -/
  verbose : Bool := false
  deriving DecidableEq, Repr

/-! ## Blanks and comments -/

/-- A comment starts with `#` and ends with its line. -/
def skipBlank (inComment : Bool) : List Char → List Char
  | [] => []
  | c :: rest =>
    if inComment then skipBlank (c != '\n') rest
    else if isBlank c then skipBlank false rest
    else if c = '#' then skipBlank true rest
    else c :: rest

def Mode.skip (m : Mode) (s : List Char) : List Char :=
  if m.verbose then skipBlank false s else s

/-- A look at what comes next: past blanks and past the sign of a comment, but not past its words. -/
def Mode.peek (m : Mode) (s : List Char) : Option Char :=
  if m.verbose then
    match s.dropWhile isBlank with
    | '#' :: rest => (rest.dropWhile isBlank).head?
    | rest => rest.head?
  else s.head?

/-! ## Symbols -/

inductive Symbol where
  /-- One character; `byte` tells that two hexadecimal digits give it. -/
  | char (c : Char) (byte : Bool)
  /-- The digits, the blanks or the characters of words, or all others. -/
  | named (others : Bool)
  /-- A place, and whether it is the edge of a word. -/
  | place (edge : Bool)
  /-- Any character but the end of a line. -/
  | any
  deriving DecidableEq, Repr

/-- Reads on after the value `n` so far. -/
def readHex (m : Mode) : (digits n : Nat) → List Char → Option (Nat × List Char)
  | 0, n, s => some (n, s)
  | digits + 1, n, s =>
    match m.skip s with
    | [] => none
    | c :: rest =>
      match Numeral.hexDigit? c with
      | none => none
      | some d => readHex m digits (n * 16 + d) rest

/-- A character by its code point. -/
def readCodePoint (m : Mode) (digits : Nat) (s : List Char) : Option (Symbol × List Char) :=
  match readHex m digits 0 s with
  | none => none
  | some (n, rest) =>
    if n.isValidChar then some (.char (Char.ofNat n) (digits == 2), rest) else none

/-- The characters of ASCII that are neither letters nor digits stand for themselves. Sets of
characters by property are left out: there are no tables for them. -/
def readEscape (m : Mode) : List Char → Option (Symbol × List Char)
  | [] => none
  | c :: rest =>
    match c with
    | 'x' => readCodePoint m 2 rest
    | 'u' => readCodePoint m 4 rest
    | 'U' => readCodePoint m 8 rest
    | 'd' | 's' | 'w' => some (.named false, rest)
    | 'D' | 'S' | 'W' => some (.named true, rest)
    | 'A' | 'z' => some (.place false, rest)
    | 'b' | 'B' | '<' | '>' => some (.place true, rest)
    | 'a' => some (.char '\x07' false, rest)
    | 't' => some (.char '\t' false, rest)
    | 'n' => some (.char '\n' false, rest)
    | 'v' => some (.char '\x0b' false, rest)
    | 'f' => some (.char '\x0c' false, rest)
    | 'r' => some (.char '\r' false, rest)
    | c => if c.toNat < 0x80 && !c.isAlphanum then some (.char c false, rest) else none

/-! ## What can be matched -/

/-- The sets with names and the edges of words would need tables for characters, as would letters
in either case. A byte that is no character of its own must not match alone. -/
def Symbol.isMatchable (m : Mode) : Symbol → Bool
  | .char c byte => if m.unicode then !m.caseless else !byte || c.toNat < 0x80
  | .named others => !m.unicode && !others
  | .place edge => !m.unicode || !edge
  | .any => m.unicode

/-- A set of bytes has characters of ASCII only. -/
def Symbol.isMember (m : Mode) : Symbol → Bool
  | .char c _ => if m.unicode then !m.caseless else c.toNat < 0x80
  | .named others => !m.unicode && !others
  | .place _ => false
  | .any => false

end Fulfilment.Text.Pattern
