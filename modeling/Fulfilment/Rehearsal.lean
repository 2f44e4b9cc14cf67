import Fulfilment.Agenda

/-!
Rehearsals: requests to coordinators and the choice of the jobs that run.

Main definitions:
- `Rehearsal.request`: performs an action to its end; jobs of a pool or of threads run as well.
- `Rehearsal.placeOrder?`: a new order under a fresh id, placed at once.
- `Rehearsal.placeAndAwait?`: the same, with jobs run until the order is concluded.
- `Rehearsal.run`: runs pending jobs, chosen by their places in the list.
-/
namespace Fulfilment.Rehearsal

set_option autoImplicit false

/-- Starts the pending job at a place in the list and runs it to its end. -/
def runAt? (s : Setup) (i : Nat) (w : World) : Option World :=
  (startAt? s i w).map fun (w, agenda) => Run.toEnd s w agenda

/-- Runs pending jobs as long as `choose` names one, given how many are pending; counts them. -/
def run (s : Setup) (choose : Nat → Nat) : (times : Nat) → World → World × Nat
  | 0, w => (w, 0)
  | times + 1, w =>
    match runAt? s (choose w.pending.length) w with
    | none => (w, 0)
    | some w =>
      let (w, n) := run s choose times w
      (w, n + 1)

def oldest (_ : Nat) : Nat := 0

def newest (pending : Nat) : Nat := pending - 1

/-- Runs the jobs at the given places, each taken modulo the number of pending jobs. -/
def runPicks (s : Setup) : (picks : List Nat) → World → World × Nat
  | [], w => (w, 0)
  | pick :: rest, w =>
    match runAt? s (pick % w.pending.length) w with
    | none => runPicks s rest w
    | some w =>
      let (w, n) := runPicks s rest w
      (w, n + 1)

/-- Runs pending jobs, the oldest first, as long as `done` does not hold. -/
def runUntil (s : Setup) (done : World → Bool) : (times : Nat) → World → World
  | 0, w => w
  | times + 1, w =>
    if done w then w
    else
      match runAt? s 0 w with
      | none => w
      | some w => runUntil s done times w

/-- Jobs that do not wait for the outside run until none is pending. -/
def quiesce (s : Setup) (w : World) : World :=
  match s.dispatch with
  | .deferred => w
  | .inline => w
  | _ => (run s oldest w.horizon w).1

def request (s : Setup) (a : Action) (w : World) : World := quiesce s (Run.toEnd s w [a])

def addOrder (o : Order) (w : World) : World := { w with orders := w.orders ++ [o] }

/-- A new order, created at the present time; nothing if no id is left. -/
def newOrder? (s : Setup) (customer : Customer) (item : String) (price : Float) (w : World) :
    Option (OrderId × World) :=
  (s.allocator.allocate? Allocator.patience w.ids w.draws).map fun (id, ids, draws) =>
    (id, addOrder { id, customer, item, price, createdAt := w.now } { w with ids, draws })

def placeOrder? (s : Setup) (c : CoordinatorRef) (customer : Customer) (item : String)
    (price : Float) (w : World) : Option (OrderId × World) :=
  (newOrder? s customer item price w).map fun (id, w') =>
    (id, request s (.place c w.orders.length) w')

/-- Places a new order and runs jobs until it is concluded. -/
def placeAndAwait? (s : Setup) (c : CoordinatorRef) (customer : Customer) (item : String)
    (price : Float) (w : World) : Option World :=
  (newOrder? s customer item price w).map fun (_, w') =>
    let o := w.orders.length
    let w' := Run.toEnd s w' [.place c o]
    runUntil s (fun w => (w.order o).isConcluded) (w'.horizon) w'

/-- The form diagnostics show for a coordinator. -/
def diagnostic (s : Setup) (c : CoordinatorRef) (w : World) : String :=
  "Commander \x7b config: " ++ s.config.diagnostic ++ ", queued_items: " ++
    toString (w.queuedItems c) ++ ", has_queue: " ++ (if s.hasStore then "true" else "false") ++
    " \x7d"

end Fulfilment.Rehearsal
