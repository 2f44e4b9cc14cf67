import Fulfilment.Config.Basic
import Fulfilment.Register
import Fulfilment.Retry
import Fulfilment.Log.Journal
import Fulfilment.Pool.Basic

/-!
The state that coordinators act on.

Main definitions:
- `Setup`: what stays fixed during a run.
- `Reply`: what a collaborator is scripted to do on a call before its own answer.
- `World`: clock, orders, collaborators, scripts, pending jobs and the journal.
- One small function per change to the world.
-/
namespace Fulfilment

set_option autoImplicit false

/-! ## Setup -/

/-- What happens to a spawned job. -/
inductive Dispatch where
  /-- It waits until it is started from outside. -/
  | deferred
  /-- It runs at once, before the work that spawned it goes on. -/
  | inline
  /-- It waits for the one worker of the named pool. -/
  | pool (name : String)
  /-- It runs on a thread of its own, after the work that spawned it. -/
  | threads
  deriving DecidableEq, Repr, Inhabited

structure Setup where
  config : Config := {}
  dispatch : Dispatch := .deferred
  /-- Whether there is a queue store. -/
  hasStore : Bool := true
  /-- How many pending jobs may run during each sleep. -/
  sleepRuns : Nat := 0
  /-- Whether sleeping moves the clock. -/
  sleepsPass : Bool := true
  allocator : Allocator := .standard
  deriving Inhabited

/-! ## Scripted replies -/

/-- What happens on a call, in the order of the fields, before the collaborator answers itself. -/
structure Reply where
  /-- The clock moves by this many nanoseconds. -/
  advance : Int := 0
  /-- So many pending jobs run, if jobs are deferred and nothing is locked. -/
  run : Nat := 0
  panics : Bool := false
  failure : Option Failure := none
  /-- A look at the queue store finds nothing. -/
  empty : Bool := false
  deriving Inhabited

/-! ## World -/

structure World where
  /-- Nanoseconds since the start of 1970. -/
  clock : Nat
  draws : Draws := {}
  orders : List Order := []
  /-- The order ids in use. -/
  ids : Register := {}
  collaborators : Collaborators := {}
  faults : FaultScripts := {}
  replies : List (CallKind × Reply) := []
  /-- For each coordinator the tasks it added to the queue store and has not removed. -/
  queued : List Nat := [0]
  /-- Jobs spawned and not started, the oldest first. -/
  pending : List Job := []
  /-- How many more jobs may run, if their number is limited. -/
  allowance : Option Nat := none
  /-- The pool accepts no more jobs. -/
  closed : Bool := false
  stats : PoolStats := {}
  /-- The latest event first. -/
  journal : List Event := []
  deriving Inhabited

namespace World

/-! ### Clock -/

/-- The clock does not pass this reading. -/
def lastClock : Nat := 4000000000000000000

def advance (w : World) (d : Int) : World :=
  { w with clock := min ((w.clock : Int) + d).toNat lastClock }

def now (w : World) : Instant := (w.clock : Int)

/-! ### Journal -/

def record (w : World) (e : Event) : World := { w with journal := e :: w.journal }

def remark (w : World) (r : Remark) : World := w.record (.remarked r)

/-! ### Orders -/

def order (w : World) (o : OrderRef) : Order := w.orders.getD o default

def idOf (w : World) (o : OrderRef) : OrderId := (w.order o).id

def modifyOrder (w : World) (o : OrderRef) (f : Order → Order) : World :=
  { w with orders := w.orders.modify o f }

def setPayment (w : World) (o : OrderRef) (p : PaymentStatus) : World :=
  w.modifyOrder o fun order => { order with payment := p }

def setSent (w : World) (o : OrderRef) (m : MessageSent) : World :=
  w.modifyOrder o fun order => { order with sent := m }

def markEscalated (w : World) (o : OrderRef) : World :=
  w.modifyOrder o fun order => { order with escalated := true }

def setLocked (w : World) (o : OrderRef) (b : Bool) : World :=
  w.modifyOrder o fun order => { order with locked := b }

/-- Shows the customer an outcome; only the first one counts. -/
def showNotice (w : World) (o : OrderRef) (n : SiteNotice) : World :=
  match (w.order o).notice with
  | some _ => w
  | none =>
    (w.modifyOrder o (·.recordNotice n)).remark (.noticeShown (w.idOf o) n)

/-- The time a stage of the order has is used up. -/
def budgetExceeded (w : World) (o : OrderRef) (budget : Span) : Bool :=
  (w.order o).budgetExceeded w.now budget

/-! ### Scripts -/

def popFault (w : World) (s : Service) : Option Failure × World :=
  let (fault, faults) := w.faults.pop s
  (fault, { w with faults })

/-- The first reply left for calls of this kind; a plain one if there is none. -/
def takeReply (w : World) (k : CallKind) : Reply × World :=
  match w.replies.find? (·.1 = k) with
  | none => ({}, w)
  | some (_, r) => (r, { w with replies := w.replies.eraseP (·.1 = k) })

def drawJitter (w : World) : Nat × World :=
  let (jitter, draws) := w.draws.below Backoff.jitterBound
  (jitter, { w with draws })

/-! ### Background jobs -/

/-- No more jobs may run. -/
def isExhausted (w : World) : Bool := w.allowance = some 0

/-- Takes one job off the allowance. -/
def spendAllowance (w : World) : World := { w with allowance := w.allowance.map (· - 1) }

def enlist (w : World) (j : Job) : World := { w with pending := w.pending ++ [j] }

/-- How many jobs are followed up: all that may still run, or a million if their number is not
limited. -/
def horizon (w : World) : Nat := w.allowance.getD 1000000 + w.pending.length

/-! ### Counters -/

def queuedItems (w : World) (c : CoordinatorRef) : Nat := w.queued.getD c 0

def countUp (w : World) (c : CoordinatorRef) : World :=
  { w with queued := w.queued.modify c (· + 1) }

/-- Never below zero. -/
def countDown (w : World) (c : CoordinatorRef) : World :=
  { w with queued := w.queued.modify c (· - 1) }

end World
end Fulfilment
