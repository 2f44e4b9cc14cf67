import Fulfilment.Scenario
import Fulfilment.Text.Numeral

/-!
Arguments of the command line.

Main definitions:
- `Arguments.read`: the options and at most one scenario, read from left to right; the first
  fault, or request for help, ends the reading.
-/
namespace Fulfilment

set_option autoImplicit false

structure Arguments where
  scenario : Option Scenario := none
  workers : Nat := 8
  fast : Bool := false
  settleSecs : Nat := 600
  deriving DecidableEq, Repr

namespace Arguments

/-- Why reading ends without arguments. -/
inductive Stop where
  | usage
  | help
  | version
  deriving DecidableEq, Repr

/-- What was given so far. -/
structure Given where
  scenario : Option Scenario := none
  workers : Option Nat := none
  fast : Bool := false
  settleSecs : Option Nat := none

def readNat (text : String) : Except Stop Nat :=
  match Text.Numeral.read UInt64.size text with
  | .ok n => .ok n
  | .error _ => .error .usage

def giveWorkers (g : Given) (text : String) : Except Stop Given := do
  let n ← readNat text
  if g.workers.isSome then .error .usage else pure { g with workers := some n }

def giveSettleSecs (g : Given) (text : String) : Except Stop Given := do
  let n ← readNat text
  if g.settleSecs.isSome then .error .usage else pure { g with settleSecs := some n }

def giveFast (g : Given) : Except Stop Given :=
  if g.fast then .error .usage else .ok { g with fast := true }

def giveScenario (g : Given) (text : String) : Except Stop Given :=
  match g.scenario, Scenario.named? text with
  | none, some s => .ok { g with scenario := some s }
  | _, _ => .error .usage

/-- Texts that start with a hyphen and have more are no values. -/
def isOption (text : String) : Bool :=
  match text.toList with
  | '-' :: _ :: _ => true
  | _ => false

/-- The name of a long option and the value after an equals sign. -/
def splitLong (cs : List Char) : String × Option String :=
  (String.ofList (cs.takeWhile (· ≠ '=')),
    match cs.dropWhile (· ≠ '=') with
    | [] => none
    | _ :: value => some (String.ofList value))

/-- The value attached to a short option; an equals sign in front is not part of it. -/
def attached? (cs : List Char) : Option String :=
  match cs with
  | [] => none
  | '=' :: value => some (String.ofList value)
  | value => some (String.ofList value)

/-- Reads the rest of the arguments; after `--` all are scenarios. -/
def readFrom (g : Given) (optionsOver : Bool) : List String → Except Stop Given
  | [] => .ok g
  | arg :: rest =>
    if optionsOver then do
      let g ← giveScenario g arg
      readFrom g true rest
    else
      match arg.toList with
      | ['-', '-'] => readFrom g true rest
      | '-' :: '-' :: name =>
        match splitLong name with
        | ("workers", some value) => do readFrom (← giveWorkers g value) false rest
        | ("settle-secs", some value) => do readFrom (← giveSettleSecs g value) false rest
        | ("workers", none) =>
          match rest with
          | value :: rest =>
            if isOption value then .error .usage
            else do readFrom (← giveWorkers g value) false rest
          | [] => .error .usage
        | ("settle-secs", none) =>
          match rest with
          | value :: rest =>
            if isOption value then .error .usage
            else do readFrom (← giveSettleSecs g value) false rest
          | [] => .error .usage
        | ("fast", none) => do readFrom (← giveFast g) false rest
        | ("help", none) => .error .help
        | ("version", none) => .error .version
        | _ => .error .usage
      | '-' :: 'w' :: value =>
        match attached? value with
        | some value => do readFrom (← giveWorkers g value) false rest
        | none =>
          match rest with
          | value :: rest =>
            if isOption value then .error .usage
            else do readFrom (← giveWorkers g value) false rest
          | [] => .error .usage
      | '-' :: 'h' :: _ => .error .help
      | '-' :: 'V' :: _ => .error .version
      | '-' :: _ :: _ => .error .usage
      | _ => do readFrom (← giveScenario g arg) false rest

/-- The number of workers can also come from the environment. -/
def workersName : String := "COMMANDER_WORKERS"

def read (lookup : String → Option String) (args : List String) : Except Stop Arguments := do
  let g ← readFrom {} false args
  let base : Arguments := {}
  let workers ← match g.workers, lookup workersName with
    | some n, _ => pure n
    | none, some text => readNat text
    | none, none => pure base.workers
  pure ⟨g.scenario, workers, g.fast, g.settleSecs.getD base.settleSecs⟩

end Arguments
end Fulfilment
