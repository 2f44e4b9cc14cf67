import Fulfilment.Text.Pattern.Symbol

/-!
Bracketed sets of a pattern: single characters, ranges, sets with names and other bracketed sets,
joined by operators.

Main definitions:
- `Pattern.depth`: how deep a list of parts is nested.
- `Pattern.readBracket`: reads a set up to its closing bracket and tells how deep it is nested.
-/
namespace Fulfilment.Text.Pattern

set_option autoImplicit false

/-- Several parts lie one level below their list; a single part is its own list. -/
def depth : List Nat → Nat
  | [] => 0
  | [d] => d
  | ds => ds.foldl max 0 + 1

/-! ## Members -/

def readMember (m : Mode) : List Char → Option (Symbol × List Char)
  | [] => none
  | '\\' :: rest => readEscape m rest
  | c :: rest => some (.char c false, rest)

def isRange (m : Mode) (first last : Symbol) : Bool :=
  first.isMember m && last.isMember m &&
    match first, last with
    | .char a _, .char b _ => a ≤ b
    | _, _ => false

/-- A member or a range; what follows it. A hyphen before the closing bracket or before another
hyphen makes no range. -/
def skipMember (m : Mode) (s : List Char) : Option (List Char) :=
  match readMember m s with
  | none => none
  | some (first, rest) =>
    match m.skip rest with
    | [] => none
    | '-' :: rest =>
      if m.peek rest = some ']' || m.peek rest = some '-' then
        if first.isMember m then some ('-' :: rest) else none
      else
        match readMember m (m.skip rest) with
        | none => none
        | some (last, rest) => if isRange m first last then some rest else none
    | rest => if first.isMember m then some rest else none

/-! ## Sets with names -/

def setNames : List String :=
  ["alnum", "alpha", "ascii", "blank", "cntrl", "digit", "graph", "lower", "print", "punct",
    "space", "upper", "word", "xdigit"]

/-- A name between colons, after the opening bracket. -/
def readName? (s : List Char) : Option (List Char) :=
  match s.dropWhile (· ≠ ':') with
  | ':' :: ']' :: rest =>
    if setNames.contains (String.ofList (s.takeWhile (· ≠ ':'))) then some rest else none
  | _ => none

/-- A caret before the name asks for all others. -/
def readNamed? : List Char → Option (Bool × List Char)
  | ':' :: '^' :: rest => (readName? rest).map fun rest => (true, rest)
  | ':' :: rest => (readName? rest).map fun rest => (false, rest)
  | _ => none

/-- In bytes the others would be more than ASCII. -/
def isNamedMember (m : Mode) (others : Bool) : Bool :=
  if m.unicode then !m.caseless else !others

/-! ## Sets -/

/-- Hyphens at the beginning stand for themselves. -/
def skipHyphens (m : Mode) : (fuel : Nat) → List Nat → List Char → List Nat × List Char
  | 0, members, s => (members, s)
  | fuel + 1, members, s =>
    match s with
    | '-' :: rest => skipHyphens m fuel (0 :: members) (m.skip rest)
    | _ => (members, s)

/-- The members that stand right after the opening bracket and a caret: hyphens, or a closing
bracket as the first member. -/
def readFirst (m : Mode) (s : List Char) : Option (List Nat × List Char) :=
  let (members, rest) :=
    match skipHyphens m s.length [] s with
    | ([], ']' :: rest) => ([0], m.skip rest)
    | found => found
  if members.isEmpty || (Symbol.char '-' false).isMember m then some (members, rest) else none

/-- A set of bytes has no complement, since that would be more than ASCII. -/
def readStart (m : Mode) (s : List Char) : Option (List Nat × List Char) :=
  match m.skip s with
  | '^' :: rest => if m.unicode then readFirst m (m.skip rest) else none
  | s => readFirst m s

/-- The depth of what stands on both sides of an operator; without an operator there is no left
side. -/
def operands : Option Nat → List Nat → Nat
  | none, members => depth members
  | some left, members => max left (depth members) + 1

/-- Reads on after the left side of an operator and some members, up to the closing bracket. -/
def readMembers (m : Mode) :
    (fuel : Nat) → Option Nat → List Nat → List Char → Option (Nat × List Char)
  | 0, _, _, _ => none
  | fuel + 1, left, members, s =>
    match m.skip s with
    | [] => none
    | ']' :: rest => some (operands left members, rest)
    | '&' :: '&' :: rest => readMembers m fuel (some (operands left members)) [] rest
    | '-' :: '-' :: rest => readMembers m fuel (some (operands left members)) [] rest
    | '~' :: '~' :: rest => readMembers m fuel (some (operands left members)) [] rest
    | '[' :: rest =>
      match readNamed? rest with
      | some (others, rest) =>
        if isNamedMember m others then readMembers m fuel left (0 :: members) rest else none
      | none =>
        match readStart m rest with
        | none => none
        | some (first, rest) =>
          match readMembers m fuel none first rest with
          | none => none
          | some (d, rest) => readMembers m fuel left ((d + 1) :: members) rest
    | s =>
      match skipMember m s with
      | none => none
      | some rest => readMembers m fuel left (0 :: members) rest

/-- A set after its opening bracket. -/
def readBracket (m : Mode) (s : List Char) : Option (Nat × List Char) :=
  match readStart m s with
  | none => none
  | some (first, rest) =>
    (readMembers m (rest.length + 1) none first rest).map fun (d, rest) => (d + 1, rest)

end Fulfilment.Text.Pattern
