import Fulfilment.Text.Alphanumeric
import Fulfilment.Text.Pattern.Bracket

/-!
Patterns: regular expressions in texts where no brace is ever closed, so that counted repetitions
and code points in braces do not occur.

Main definitions:
- `Pattern.readBranches`: reads a pattern or the inside of a group.
- `isPattern`: a text is a pattern if it is well formed, if each of its symbols can be matched, and
  if it is not nested too deep.
-/
namespace Fulfilment.Text

set_option autoImplicit false

namespace Pattern

/-! ## Groups -/

/-- The flags for case, lines, dots, greed, characters, line ends and blanks. -/
def flagLetters : List Char := ['i', 'm', 's', 'U', 'u', 'R', 'x']

/-- Flags stand once each, and those after a hyphen are taken back. -/
def isFlags (flags : List Char) : Bool :=
  flags.all (fun c => c = '-' || flagLetters.contains c) && decide flags.Nodup &&
    flags.getLast? != some '-'

def Mode.set (m : Mode) (flags : List Char) : Mode :=
  let given := flags.takeWhile (· ≠ '-')
  let flag (c : Char) (old : Bool) := if flags.contains c then given.contains c else old
  { caseless := flag 'i' m.caseless, unicode := flag 'u' m.unicode, verbose := flag 'x' m.verbose }

inductive Opening where
  | group (m : Mode)
  | named (name : List Char)
  /-- No group, but flags for what follows. -/
  | flags (m : Mode)

def isName : List Char → Bool
  | [] => false
  | c :: rest =>
    (c = '_' || isAlphabetic c) &&
      rest.all fun c => ['_', '.', '[', ']'].contains c || isAlphanumeric c

def readGroupName (s : List Char) : Option (Opening × List Char) :=
  let name := s.takeWhile (· ≠ '>')
  match s.dropWhile (· ≠ '>') with
  | [] => none
  | _ :: rest => if isName name then some (.named name, rest) else none

def readFlags (m : Mode) (s : List Char) : Option (Opening × List Char) :=
  let flags := s.takeWhile fun c => c ≠ ':' && c ≠ ')'
  match s.dropWhile fun c => c ≠ ':' && c ≠ ')' with
  | [] => none
  | c :: rest =>
    if !isFlags flags then none
    else if c = ':' then some (.group (m.set flags), rest)
    else if flags.isEmpty then none
    else some (.flags (m.set flags), rest)

/-- What follows an opening parenthesis. -/
def readOpening (m : Mode) (s : List Char) : Option (Opening × List Char) :=
  match m.skip s with
  | '?' :: 'P' :: '<' :: rest => readGroupName rest
  | '?' :: '<' :: rest => readGroupName rest
  | '?' :: rest => readFlags m rest
  | rest => some (.group m, rest)

/-! ## Sequences -/

inductive Item where
  /-- Flags, which cannot be repeated. -/
  | flags
  | part (depth : Nat)

def Item.depth : Item → Nat
  | .flags => 0
  | .part d => d

/-- A sign of repetition after an item; a question mark behind it makes it reluctant. -/
def repeated : List Item → List Char → Option (List Item × List Char)
  | .part d :: items, '?' :: rest => some (.part (d + 1) :: items, rest)
  | .part d :: items, rest => some (.part (d + 1) :: items, rest)
  | _, _ => none

def readSymbol (m : Mode) : List Char → Option (Symbol × List Char)
  | [] => none
  | '\\' :: rest => readEscape m rest
  | '.' :: rest => some (.any, rest)
  | '^' :: rest => some (.place false, rest)
  | '$' :: rest => some (.place false, rest)
  | c :: rest => some (.char c false, rest)

/-- What has been read: how deep it is nested, the names of groups so far, and the rest, which is
nothing or starts with a closing parenthesis. -/
structure Found where
  depth : Nat
  names : List (List Char)
  rest : List Char

/-- Reads on after some finished branches and some items of the present one, the latest first. -/
def readBranches : (fuel : Nat) → Mode → (names : List (List Char)) → (branches : List Nat) →
    List Item → List Char → Option Found
  | 0, _, _, _, _, _ => none
  | fuel + 1, m, names, branches, items, s =>
    let branch := depth (items.map Item.depth)
    match m.skip s with
    | [] => some ⟨depth (branch :: branches), names, []⟩
    | ')' :: rest => some ⟨depth (branch :: branches), names, ')' :: rest⟩
    | '|' :: rest => readBranches fuel m names (branch :: branches) [] rest
    | '(' :: rest =>
      let grouped (inner : Mode) (names : List (List Char)) (rest : List Char) : Option Found :=
        match readBranches fuel inner names [] [] rest with
        | some ⟨d, names, ')' :: rest⟩ =>
          readBranches fuel m names branches (.part (d + 1) :: items) rest
        | _ => none
      match readOpening m rest with
      | none => none
      | some (.group inner, rest) => grouped inner names rest
      | some (.named name, rest) =>
        if names.contains name then none else grouped m (name :: names) rest
      | some (.flags m, rest) => readBranches fuel m names branches (.flags :: items) rest
    | '[' :: rest =>
      match readBracket m rest with
      | none => none
      | some (d, rest) => readBranches fuel m names branches (.part d :: items) rest
    | '\x7b' :: _ => none
    | c :: rest =>
      if c = '?' || c = '*' || c = '+' then
        match repeated items rest with
        | none => none
        | some (items, rest) => readBranches fuel m names branches items rest
      else
        match readSymbol m (c :: rest) with
        | none => none
        | some (symbol, rest) =>
          if symbol.isMatchable m then readBranches fuel m names branches (.part 0 :: items) rest
          else none

/-- Patterns that are nested deeper are refused. -/
def deepest : Nat := 250

end Pattern

def isPattern (s : List Char) : Bool :=
  match Pattern.readBranches (s.length + 1) {} [] [] [] s with
  | some ⟨depth, _, []⟩ => depth ≤ Pattern.deepest
  | _ => false

end Fulfilment.Text
