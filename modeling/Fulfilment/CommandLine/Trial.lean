import Fulfilment.Rehearsal
import Fulfilment.Scenario
import Fulfilment.Log.Format

/-!
Trials: one order placed in a scenario, and what became of it.

Main definitions:
- `Trial`: the order runs on a pool whose workers are waited for up to a deadline; after that the
  pool takes no more jobs, and the jobs it has run to their end.
- `TrialReport`: where the order ended up.
-/
namespace Fulfilment

set_option autoImplicit false

structure TrialReport where
  scenario : Scenario
  /-- All background work ended in time. -/
  settled : Bool
  order : Snapshot
  paymentsTaken : Nat
  messagesSent : Nat
  queuedTasks : List TaskType
  escalatedOrders : Nat

namespace TrialReport

def toJson (r : TrialReport) : Json :=
  .object [("scenario", .text r.scenario.name), ("settled", .bool r.settled),
    ("order", r.order.toJson), ("payments_taken", .ofNat r.paymentsTaken),
    ("messages_sent", .ofNat r.messagesSent), ("queued_tasks", .array (r.queuedTasks.map TaskType.toJson)),
    ("escalated_orders", .ofNat r.escalatedOrders)]

end TrialReport

/-- A run with the log lines it has written, the latest first. -/
structure Trial where
  run : Run
  lines : List LogLine := []

namespace Trial

/-- Turns what the journal says into log lines of a thread, and clears it. -/
def collect (t : Trial) (thread : String) : Trial :=
  let w := t.run.world
  let said := w.journal.filterMap fun e =>
    match e with
    | .remarked r => some (⟨w.now, thread, r⟩ : LogLine)
    | _ => none
  { run := { t.run with world := { w with journal := [] } }, lines := said ++ t.lines }

def say (t : Trial) (thread : String) (r : Remark) : Trial :=
  let w := t.run.world
  { t with lines := ⟨w.now, thread, r⟩ :: t.lines }

def mainThread : String := "main"

/-- Once the deadline has passed with jobs left, the pool takes no more. -/
def checkDeadline (t : Trial) (scenario : Scenario) (deadline : Nat) : Trial :=
  let w := t.run.world
  if !w.closed && deadline ≤ w.clock && 0 < w.stats.pending then
    { t with run := { t.run with world := { w with closed := true } } }.say mainThread
      (.scenarioUnsettled scenario.name)
  else t

/-- One worker runs the jobs of the pool in their order. -/
def work (s : Setup) (scenario : Scenario) (worker : String) (deadline : Nat) : Nat → Trial → Trial
  | 0, t => t
  | fuel + 1, t =>
    let t := t.checkDeadline scenario deadline
    if t.run.isOver then
      match startAt? s 0 t.run.world with
      | none => t
      | some (w, agenda) =>
        work s scenario worker deadline fuel
          (collect { t with run := { world := w, agenda } } worker)
    else work s scenario worker deadline fuel (collect { t with run := t.run.step s } worker)

/-! ## From the order to the report -/

/-- Who orders in a trial. -/
def customer : Customer := ⟨"Jim", "ABCD"⟩

def item : String := "book"

def price : Float := 10.0

/-- A list of more workers than this cannot be laid out. -/
def mostWorkers : Nat := (UInt64.size / 2 - 1) / 24

/-- The end of a longer wait, in seconds, would be no clock reading: the clock counts seconds in 63
bits and has run for a day. -/
def longestWait : Nat := UInt64.size / 2 - 86400

/-- What a trial leaves behind; no report if it broke off. -/
structure Ending where
  world : World
  /-- The log, the earliest line first. -/
  lines : List LogLine := []
  report : Option TrialReport := none

def brokenOff (t : Trial) : Ending := { world := t.run.world, lines := t.lines.reverse }

def reported (t : Trial) (scenario : Scenario) : Ending :=
  let w := t.run.world
  let c := w.collaborators
  { t.brokenOff with
    report := some
      { scenario
        settled := !w.closed
        order := (w.order 0).snapshot
        paymentsTaken := c.payment.size
        messagesSent := c.messaging.size
        queuedTasks := c.added
        escalatedOrders := c.employee.size } }

def poolOf (scenario : Scenario) : String := "demo-" ++ scenario.name

/-- The only order of the trial is placed, on the main thread. -/
def placed (s : Setup) (t : Trial) : Trial :=
  collect { t with run := { world := Run.toEnd s t.run.world [.place 0 0] } } mainThread

/-- Runs a scenario from a world in which nothing was ordered yet. -/
def perform (config : Config) (scenario : Scenario) (workers settleSecs : Nat) (start : World) :
    Ending :=
  let pool := poolOf scenario
  let s : Setup := { config, dispatch := .pool pool }
  match Rehearsal.newOrder? s customer item price { start with faults := scenario.faults } with
  | none => { world := start }
  | some (_, ordered) =>
    let t : Trial := { run := { world := ordered } }
    if mostWorkers < workers then t.brokenOff
    else
      let t := ((t.say mainThread (.poolStarted pool workers)).say mainThread
        (.scenarioRunning scenario.name)).placed s
      if longestWait < settleSecs then t.brokenOff
      else
        let w := t.run.world
        let t := t.work s scenario (pool ++ "-0") (w.clock + Span.ofSecs settleSecs)
          (Run.patience s w)
        (t.say mainThread (.poolStopped pool)).reported scenario

end Trial
end Fulfilment
