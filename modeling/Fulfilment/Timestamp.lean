import Fulfilment.Span
import Fulfilment.Text.Blank

/-!
Points in time and their calendar text.

Main definitions:
- `Instant`: nanoseconds since the start of 1970, negative before it.
- `Timestamp`: a calendar reading in UTC, which can also name a leap second.
- `Timestamp.text` and `Timestamp.read?`: RFC 3339, written with the shortest of 0, 3, 6 or 9
  digits that is exact; reading also takes blanks around the separators, short fields, `UTC` for
  `Z`, an offset without colon and signed years.
-/
namespace Fulfilment

set_option autoImplicit false

abbrev Instant := Int

/-- Time passed from `start` to `now`, nothing if `now` is earlier. -/
def Instant.since (now start : Instant) : Span := (now - start).toNat

structure Timestamp where
  /-- Seconds since the start of 1970. -/
  second : Int
  /-- Nanoseconds; `10 ^ 9` and more lie in a leap second that follows `second`. -/
  nano : Nat
  deriving DecidableEq, Repr, Inhabited

namespace Timestamp

def ofInstant (t : Instant) : Timestamp := ⟨t / 1000000000, (t % 1000000000).toNat⟩

/-! ## Calendar -/

/-- Year, month and day of a day count that is 0 on the first day of 1970. -/
def dateOfDay (day : Int) : Int × Nat × Nat :=
  let shifted := day + 719468
  let era := shifted / 146097
  let dayOfEra := (shifted % 146097).toNat
  let yearOfEra := (dayOfEra - dayOfEra / 1460 + dayOfEra / 36524 - dayOfEra / 146096) / 365
  let dayOfYear := dayOfEra - (365 * yearOfEra + yearOfEra / 4 - yearOfEra / 100)
  let marchMonth := (5 * dayOfYear + 2) / 153
  let day := dayOfYear - (153 * marchMonth + 2) / 5 + 1
  let month := if marchMonth < 10 then marchMonth + 3 else marchMonth - 9
  (yearOfEra + era * 400 + (if month ≤ 2 then 1 else 0), month, day)

def dayOfDate (year : Int) (month day : Nat) : Int :=
  let marchYear := if month ≤ 2 then year - 1 else year
  let era := marchYear / 400
  let yearOfEra := (marchYear % 400).toNat
  let marchMonth := if 2 < month then month - 3 else month + 9
  let dayOfYear := (153 * marchMonth + 2) / 5 + day - 1
  let dayOfEra := yearOfEra * 365 + yearOfEra / 4 - yearOfEra / 100 + dayOfYear
  era * 146097 + dayOfEra - 719468

def isLeapYear (year : Int) : Bool := year % 4 = 0 && (year % 100 ≠ 0 || year % 400 = 0)

def monthLength (year : Int) (month : Nat) : Nat :=
  if month = 2 then (if isLeapYear year then 29 else 28)
  else if month = 4 ∨ month = 6 ∨ month = 9 ∨ month = 11 then 30
  else 31

/-! ## Writing -/

def digits (width n : Nat) : String := String.ofList (Span.padded width n)

/-- Four digits, outside the years 0 to 9999 with a sign. -/
def yearText (year : Int) : String :=
  if 0 ≤ year ∧ year ≤ 9999 then digits 4 year.toNat
  else (if year < 0 then "-" else "+") ++ digits 4 year.natAbs

def fractionText (nano : Nat) : String :=
  if nano = 0 then ""
  else if nano % 1000000 = 0 then "." ++ digits 3 (nano / 1000000)
  else if nano % 1000 = 0 then "." ++ digits 6 (nano / 1000)
  else "." ++ digits 9 nano

def text (t : Timestamp) : String :=
  let (year, month, day) := dateOfDay (t.second / 86400)
  let ofDay := (t.second % 86400).toNat
  let second := ofDay % 60 + t.nano / 1000000000
  yearText year ++ "-" ++ digits 2 month ++ "-" ++ digits 2 day ++ "T" ++
    digits 2 (ofDay / 3600) ++ ":" ++ digits 2 (ofDay / 60 % 60) ++ ":" ++ digits 2 second ++
    fractionText (t.nano % 1000000000) ++ "Z"

/-! ## Reading -/

def skipBlanks (cs : List Char) : List Char := cs.dropWhile Text.isBlank

/-- At least one and at most `width` digits. -/
def readDigits (width : Nat) (cs : List Char) : Option (Nat × List Char) :=
  let found := (cs.take width).takeWhile Char.isDigit
  if found.isEmpty then none
  else some (found.foldl (fun n c => n * 10 + (c.toNat - 48)) 0, cs.drop found.length)

/-- A field of one or two digits, with blanks allowed in front, within its bounds. -/
def readField (least most : Nat) (cs : List Char) : Option (Nat × List Char) :=
  match readDigits 2 (skipBlanks cs) with
  | some (n, rest) => if least ≤ n ∧ n ≤ most then some (n, rest) else none
  | none => none

/-- Up to four digits, after a sign any number of them. -/
def readYear (cs : List Char) : Option (Int × List Char) :=
  match skipBlanks cs with
  | '-' :: rest => (readDigits rest.length rest).map fun (n, rest) => (-(n : Int), rest)
  | '+' :: rest => (readDigits rest.length rest).map fun (n, rest) => ((n : Int), rest)
  | cs => (readDigits 4 cs).map fun (n, rest) => ((n : Int), rest)

def expect (c : Char) (cs : List Char) : Option (List Char) :=
  match skipBlanks cs with
  | d :: rest => if c = d then some rest else none
  | [] => none

/-- Nanoseconds after a point; digits beyond the ninth are dropped. -/
def readFraction : List Char → Option (Nat × List Char)
  | '.' :: rest =>
    let found := rest.takeWhile Char.isDigit
    match readDigits 9 rest with
    | none => none
    | some (n, _) => some (n * Nat.pow 10 (9 - min 9 found.length), rest.drop found.length)
  | cs => some (0, cs)

/-- Seconds east of UTC. -/
def readOffset : List Char → Option (Int × List Char)
  | 'Z' :: rest => some (0, rest)
  | 'z' :: rest => some (0, rest)
  | sign :: h1 :: h2 :: rest =>
    if (sign = '+' ∨ sign = '-' ∨ sign = '−') ∧ h1.isDigit ∧ h2.isDigit then
      match rest.dropWhile (fun c => c == ':' || Text.isBlank c) with
      | m1 :: m2 :: rest =>
        if m1.isDigit ∧ m1 ≤ '5' ∧ m2.isDigit then
          let hours := (h1.toNat - 48) * 10 + (h2.toNat - 48)
          let minutes := (m1.toNat - 48) * 10 + (m2.toNat - 48)
          let east : Int := ((hours * 60 + minutes) * 60 : Nat)
          if 86400 ≤ east then none
          else some (if sign = '+' then east else -east, rest)
        else none
      | _ => none
    else none
  | _ => none

def readZone (cs : List Char) : Option (Int × List Char) :=
  match skipBlanks cs with
  | u :: t :: c :: rest =>
    if u.toLower = 'u' ∧ t.toLower = 't' ∧ c.toLower = 'c' then some (0, rest)
    else readOffset (u :: t :: c :: rest)
  | cs => readOffset cs

/-- The years whose dates can be stored. -/
def leastYear : Int := -262143
def mostYear : Int := 262142

def inRange (t : Timestamp) : Bool :=
  let (year, _, _) := dateOfDay (t.second / 86400)
  leastYear ≤ year && year ≤ mostYear

def readList (cs : List Char) : Option Timestamp := do
  let (year, cs) ← readYear cs
  let cs ← expect '-' cs
  let (month, cs) ← readField 1 12 cs
  let cs ← expect '-' cs
  let (day, cs) ← readField 1 31 cs
  let cs ← match cs with
    | c :: rest => if c = 'T' ∨ c = 't' ∨ c = ' ' then some rest else none
    | [] => none
  let (hour, cs) ← readField 0 23 cs
  let cs ← expect ':' cs
  let (minute, cs) ← readField 0 59 cs
  let cs ← expect ':' cs
  let (second, cs) ← readField 0 60 cs
  let (nano, cs) ← readFraction cs
  let (east, cs) ← readZone cs
  if (skipBlanks cs).isEmpty ∧ leastYear ≤ year ∧ year ≤ mostYear ∧ day ≤ monthLength year month then
    let whole := min second 59
    let start := dayOfDate year month day * 86400 + (hour * 3600 + minute * 60 + whole : Nat)
    let t : Timestamp := ⟨start - east, nano + (second - whole) * 1000000000⟩
    if t.inRange then some t else none
  else none

def read? (s : String) : Option Timestamp := readList s.toList

end Timestamp
end Fulfilment
