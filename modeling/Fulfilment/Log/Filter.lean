import Fulfilment.Log.Remark
import Fulfilment.Text.Alphanumeric
import Fulfilment.Text.Blank
import Fulfilment.Text.Numeral
import Fulfilment.Text.Pattern
import Fulfilment.Text.Slice

/-!
How much of the log is shown.

Main definitions:
- `LogDirective`: up to which level entries of some speakers are shown.
- `LogDirective.read`: a level, a speaker, or both as in `queue=warn`; what stands in brackets,
  as in `queue[{order_id}]=warn`, asks for a span or a field.
- `LogFilter`: directives, of which the most specific one that applies to an entry decides.
-/
namespace Fulfilment

set_option autoImplicit false

/-! ## Directives -/

/-- A field that an entry has to have, and whether a value is asked for. -/
structure FieldTest where
  name : String
  hasValue : Bool
  deriving DecidableEq, Repr

structure LogDirective where
  /-- How the paths of its speakers begin; anyone is meant without it. -/
  target : Option String := none
  /-- The span in which entries have to be written. -/
  span : Option String := none
  field : Option FieldTest := none
  /-- The verbosity up to which entries are shown; nothing is shown at 0. -/
  most : Nat := Level.trace.verbosity
  deriving DecidableEq, Repr

namespace LogDirective

/-! ### Reading -/

inductive Fault where
  | malformed
  /-- A text would have to be cut within a character. -/
  | torn
  deriving DecidableEq, Repr

/-- A level by its verbosity or by its name in any case. -/
def verbosity? (s : List Char) : Option Nat :=
  match Text.Numeral.readList UInt64.size s with
  | .ok n => if n ≤ Level.trace.verbosity then some n else none
  | .error _ =>
    match Text.asciiLower (String.ofList s) with
    | "off" => some 0
    | "error" => some Level.error.verbosity
    | "warn" => some Level.warn.verbosity
    | "info" => some Level.info.verbosity
    | "debug" => some Level.debug.verbosity
    | "trace" => some Level.trace.verbosity
    | _ => none

/-- What follows the equals sign of a directive; everything is shown if nothing does. -/
def readLevel (d : LogDirective) : List Char → Except Fault LogDirective
  | [] => .ok d
  | s =>
    match verbosity? s with
    | none => .error .malformed
    | some n => .ok { d with most := n }

/-- A name, or a name and a value: a number or a pattern. -/
def readField (s : List Char) : Except Fault FieldTest :=
  let name := String.ofList (s.takeWhile (· ≠ '='))
  match s, s.dropWhile (· ≠ '=') with
  | [], _ => .error .malformed
  | _, [] => .ok ⟨name, false⟩
  | _, _ :: rest =>
    let value := rest.takeWhile (· ≠ '=')
    if Text.Numeral.isReal value || Text.isPattern value then .ok ⟨name, true⟩
    else .error .malformed

/-- The part of a word between two of its places. -/
def cut (word : List Char) (start stop : Nat) : Except Fault (List Char) :=
  match Text.slice? start stop word with
  | none => .error .torn
  | some s => .ok s

def cutFrom (word : List Char) (start : Nat) : Except Fault (List Char) :=
  match Text.sliceFrom? start word with
  | none => .error .torn
  | some s => .ok s

/-- What follows the closing bracket; `place` is where it starts. -/
def readEnd (word : List Char) (d : LogDirective) (place : Nat) :
    List Char → Except Fault LogDirective
  | [] => .ok d
  | '=' :: _ => (cutFrom word (place + 1)).bind d.readLevel
  | _ => .error .malformed

/-- What follows the opening brace. -/
def readBraces (word : List Char) (d : LogDirective) (place : Nat) (s : List Char) :
    Except Fault LogDirective :=
  let stop := place + Text.byteCount (s.takeWhile (· ≠ '\x7d'))
  match s.dropWhile (· ≠ '\x7d') with
  | [] => .error .malformed
  | _ :: rest =>
    ((cut word place stop).bind readField).bind fun field =>
      match rest with
      | ']' :: rest => readEnd word { d with field := some field } (stop + 2) rest
      | _ => .error .malformed

/-- What follows the opening bracket: a span, a field in braces, or a span with a field. -/
def readBrackets (word : List Char) (d : LogDirective) (place : Nat) (s : List Char) :
    Except Fault LogDirective :=
  let stop := place + Text.byteCount (s.takeWhile fun c => c ≠ ']' && c ≠ '\x7b')
  match s.dropWhile fun c => c ≠ ']' && c ≠ '\x7b' with
  | [] => .error .malformed
  | c :: rest =>
    (cut word place stop).bind fun span =>
      if c = ']' then
        readEnd word { d with span := some (String.ofList span) } (stop + 1) rest
      else
        let span := if span.isEmpty then none else some (String.ofList span)
        readBraces word { d with span := span } (stop + 1) rest

def startsName (c : Char) : Bool := c = '-' || c = ':' || c = '_' || Text.isAlphanumeric c

/-- What follows the name at the beginning of a word. -/
def readNamed (word : List Char) (stop : Nat) : List Char → Except Fault LogDirective
  | [] =>
    match verbosity? word with
    | some n => .ok { most := n }
    | none => .ok { target := some (String.ofList word) }
  | c :: rest =>
    (cut word 0 stop).bind fun name =>
      let d : LogDirective := { target := some (String.ofList name) }
      if c = '=' then (cutFrom word (stop + 1)).bind d.readLevel
      else readBrackets word d (stop + 1) rest

/-- Places are counted without the blanks around a word, and texts are cut at these places from the
word with its blanks. So no level is read where blanks stand around its word. -/
def readList (word : List Char) : Except Fault LogDirective :=
  match Text.trimList word with
  | [] => .error .malformed
  | '[' :: rest => readBrackets word {} 1 rest
  | c :: rest =>
    let name := (c :: rest).takeWhile fun c => c ≠ '=' && c ≠ '['
    if startsName c then
      readNamed word (Text.byteCount name) ((c :: rest).dropWhile fun c => c ≠ '=' && c ≠ '[')
    else .error .malformed

def read (word : String) : Except Fault LogDirective := readList word.toList

/-! ### Applying -/

/-- Nothing is written within a span, and the value of a field is known only there. -/
def applies (d : LogDirective) (r : Remark) : Bool :=
  d.span.isNone &&
    (match d.target with
      | none => true
      | some t => t.toList.isPrefixOf r.speaker.path.toList) &&
    match d.field with
    | none => true
    | some f => !f.hasValue && r.entry.fieldNames.contains f.name

/-- A longer target is more specific than a shorter one, and any is than none. -/
def reach (d : LogDirective) : Nat :=
  match d.target with
  | none => 0
  | some t => t.utf8ByteSize + 1

/-- Whether `a` is more specific than `b`, where both apply. -/
def outranks (a b : LogDirective) : Bool :=
  b.reach < a.reach || b.reach = a.reach &&
    match a.field, b.field with
    | none, _ => false
    | some _, none => true
    | some f, some g => g.name < f.name

/-- The most specific directive, and of equally specific ones the last. -/
def mostSpecific? (ds : List LogDirective) : Option LogDirective :=
  ds.foldl
    (fun best d =>
      match best with
      | none => some d
      | some b => if b.outranks d then some b else some d)
    none

end LogDirective

/-! ## Filters -/

structure LogFilter where
  directives : List LogDirective
  deriving DecidableEq, Repr

namespace LogFilter

/-- Everyone's entries up to a level. -/
def upTo (l : Level) : LogFilter := ⟨[{ most := l.verbosity }]⟩

def byDefault : LogFilter := upTo .info

/-- Directives with commas between them, up to the first fault. A malformed one makes the whole text
as good as none; with a torn one there is no filter. -/
def read? : Option String → Option LogFilter
  | none => some byDefault
  | some s =>
    match ((s.splitOn ",").filter (· ≠ "")).mapM LogDirective.read with
    | .ok ds => some ⟨ds⟩
    | .error .malformed => some byDefault
    | .error .torn => none

def deciding? (f : LogFilter) (r : Remark) : Option LogDirective :=
  LogDirective.mostSpecific? (f.directives.filter (·.applies r))

def shows (f : LogFilter) (r : Remark) : Bool :=
  match f.deciding? r with
  | none => false
  | some d => r.entry.level.verbosity ≤ d.most

end LogFilter
end Fulfilment
