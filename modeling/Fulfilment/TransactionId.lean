import Fulfilment.Span
import Fulfilment.Text.Numeral
import Fulfilment.Text.Slice

/-!
Ids of accepted requests, as UUIDs.

Main definitions:
- `TransactionId.text`: 32 small hexadecimal digits in groups of 8, 4, 4, 4 and 12.
- `TransactionId.read`: the digits alone, in groups, in groups between braces or in groups after
  `urn:uuid:`.
- `TransactionId.Fault`: why a text is none of these.
- `TransactionId.timeOrdered`: version 7, milliseconds first and then random bits.
-/
namespace Fulfilment

open Text (byteCount)
open Text.Numeral (hexDigit?)

set_option autoImplicit false

structure TransactionId where
  value : Nat
  deriving DecidableEq, Repr, Inhabited

namespace TransactionId

/-! ## Writing -/

/-- An id has 128 bits. -/
def valueBound : Nat := UInt64.size * UInt64.size

def hexDigits (value : Nat) : List Char :=
  let cs := Nat.toDigits 16 (value % valueBound)
  List.replicate (32 - cs.length) '0' ++ cs

def text (id : TransactionId) : String :=
  let cs := hexDigits id.value
  String.ofList (cs.take 8 ++ '-' :: (cs.drop 8).take 4 ++ '-' :: (cs.drop 12).take 4 ++
    '-' :: (cs.drop 16).take 4 ++ '-' :: cs.drop 20)

/-- Six octets of milliseconds, then random bits around the version and the variant. -/
def timeOrdered (millis first second : Nat) : TransactionId :=
  ⟨((millis % 0x1000000000000 * 16 + 7) * 4096 + first % 4096) * UInt64.size +
    0x8000000000000000 + second % 0x4000000000000000⟩

def version (id : TransactionId) : Nat := id.value / UInt64.size / 4096 % 16

/-! ## Reading -/

inductive Fault where
  | length (found : Nat)
  | character (c : Char) (index : Nat)
  | groupCount (found : Nat)
  | groupLength (group expected found : Nat)
  deriving DecidableEq, Repr

def Fault.detail : Fault → String
  | .length found => "invalid length: found " ++ toString found
  | .character c index =>
    "invalid character: found `" ++ String.singleton c ++ "` at " ++ toString index
  | .groupCount found => "invalid group count: expected 5, found " ++ toString found
  | .groupLength group expected found =>
    "invalid group length in group " ++ toString group ++ ": expected " ++ toString expected ++
      ", found " ++ toString found

def Fault.message (f : Fault) : String := "invalid identifier: TransactionId: " ++ f.detail

/-- The text without the prefix `urn:uuid:` in any case. -/
def afterUrn? (cs : List Char) : Option (List Char) :=
  if (cs.take 9).map Char.toLower = "urn:uuid:".toList then some (cs.drop 9) else none

def insideBraces? (cs : List Char) : Option (List Char) :=
  match cs with
  | '\x7b' :: rest => if rest.getLast? = some '\x7d' then some rest.dropLast else none
  | _ => none

def hyphenPlaces : List Nat := [8, 13, 18, 23]

/-- The value of 32 digits, hyphens skipped. -/
def valueOf (cs : List Char) : Nat :=
  cs.foldl (fun n c => match hexDigit? c with | some d => n * 16 + d | none => n) 0

def isGrouped (cs : List Char) : Bool :=
  cs.length = 36 &&
    cs.zipIdx.all fun (c, i) => if hyphenPlaces.contains i then c == '-' else (hexDigit? c).isSome

def isPlain (cs : List Char) : Bool := cs.length = 32 && cs.all fun c => (hexDigit? c).isSome

/-- The value of a text in one of the accepted forms. -/
def accepted? (cs : List Char) : Option TransactionId :=
  if isPlain cs || isGrouped cs then some ⟨valueOf cs⟩
  else
    match insideBraces? cs, afterUrn? cs with
    | some inner, _ => if isGrouped inner then some ⟨valueOf inner⟩ else none
    | none, some inner => if isGrouped inner then some ⟨valueOf inner⟩ else none
    | none, none => none

/-- What the search for the fault looks at: the characters, whether groups were asked for, and
the part with the digits, which starts at byte `start`. -/
structure Suspect where
  whole : List Char
  digits : List Char
  start : Nat
  grouped : Bool

def suspect (cs : List Char) : Suspect :=
  if byteCount cs = 36 then ⟨cs, cs, 0, true⟩
  else
    match insideBraces? cs, afterUrn? cs with
    | some inner, _ =>
      if byteCount cs = 38 then ⟨inner, inner, 0, true⟩ else ⟨cs, inner, 1, true⟩
    | none, some inner =>
      if byteCount cs = 45 then ⟨inner, inner, 0, true⟩ else ⟨cs, inner, 9, true⟩
    | none, none => ⟨cs, cs, 0, false⟩

/-- The places of the hyphens, or the first character that is neither digit nor hyphen. -/
def hyphens (start : Nat) : (place : Nat) → List Char → Except Fault (List Nat)
  | _, [] => .ok []
  | place, c :: rest =>
    if c = '-' then (hyphens start (place + 1) rest).map (place :: ·)
    else if (hexDigit? c).isSome then hyphens start (place + 1) rest
    else .error (.character c (start + place))

/-- The first group whose hyphen is not in its place, else the last group. -/
def groupFault (bytes : Nat) (places : List Nat) : Fault :=
  match (places.zip hyphenPlaces).zipIdx.find? (fun ((found, due), _) => found ≠ due) with
  | some ((found, due), group) =>
    let expected := if group = 0 then 8 else 4
    .groupLength group expected (found - (due - expected))
  | none => .groupLength 4 12 (bytes - 24)

def fault (cs : List Char) : Fault :=
  let s := suspect cs
  let bytes := byteCount s.whole
  if bytes = 0 ∨ 45 < bytes then .length bytes
  else
    match hyphens s.start 0 s.digits with
    | .error f => f
    | .ok places =>
      if places.isEmpty ∧ ¬ s.grouped then .length bytes
      else if places.length ≠ 4 then .groupCount (places.length + 1)
      else groupFault bytes places

def read (s : String) : Except Fault TransactionId :=
  match accepted? s.toList with
  | some id => .ok id
  | none => .error (fault s.toList)

end TransactionId
end Fulfilment
