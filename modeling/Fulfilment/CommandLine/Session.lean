import Fulfilment.CommandLine.Arguments
import Fulfilment.CommandLine.Trial
import Fulfilment.Config.Settings
import Fulfilment.Log.Filter

/-!
A session of the command line, from its arguments to its output.

Main definitions:
- `Session.run`: runs the chosen scenario, or all of them, and reports on each.
- `Session.Output`: the lines, the complaint and the exit code.
-/
namespace Fulfilment.Session

set_option autoImplicit false

inductive Line where
  | log (l : LogLine)
  | report (r : TrialReport)

structure Output where
  exit : Nat := 0
  lines : List Line := []
  /-- What is written on the error stream. -/
  complaint : String := ""

/-- Short waits and budgets for a look at all scenarios. -/
def fastConfig : Config :=
  { retry := ⟨1, Span.ofMillis 200⟩
    limits := ⟨Span.ofSecs 10, Span.ofSecs 1, Span.ofSecs 6, Span.ofSecs 5, Span.ofSecs 4⟩ }

inductive Fault where
  | noWorkers
  | settings (f : Setting.Fault)

def Fault.message : Fault → String
  | .noWorkers => "Error: --workers must be at least 1\n"
  | .settings f => "Error: reading COMMANDER_* settings\n\nCaused by:\n    " ++ f.message ++ "\n"

def usage : String :=
  "Usage: fulfilment [OPTIONS] [SCENARIO]\n\nScenarios: " ++
    String.intercalate ", " (Scenario.all.map Scenario.name) ++
    "\n\nOptions:\n  -w, --workers <WORKERS>          number of workers (default 8)\n" ++
    "      --fast                       short retries and budgets\n" ++
    "      --settle-secs <SETTLE_SECS>  seconds to wait for background work (default 600)\n" ++
    "  -h, --help                       print help\n  -V, --version                    print version\n"

/-- Clock, draws and ids go on from one scenario to the next. -/
def renewed (w : World) : World :=
  { clock := w.clock
    draws := w.draws
    collaborators := { lastId := w.collaborators.lastId } }

/-- The exit code of a session that breaks off. -/
def brokenOff : Nat := 101

/-- Runs scenarios one after the other, up to one that cannot be carried through. -/
def runAll (config : Config) (filter : LogFilter) (args : Arguments) : List Scenario → World → Output
  | [], _ => {}
  | scenario :: rest, w =>
    let ending := Trial.perform config scenario args.workers args.settleSecs w
    let shown := (ending.lines.filter fun l => filter.shows l.remark).map Line.log
    match ending.report with
    | none => { exit := brokenOff, lines := shown }
    | some report =>
      let others := runAll config filter args rest (renewed ending.world)
      { others with lines := shown ++ .report report :: others.lines }

def configOf (lookup : String → Option String) (args : Arguments) : Except Fault Config :=
  if args.workers = 0 then .error .noWorkers
  else if args.fast then .ok fastConfig
  else
    match Config.ofSettings lookup with
    | .ok c => .ok c
    | .error f => .error (.settings f)

def filterName : String := "RUST_LOG"

def formatName : String := "COMMANDER_LOG_FORMAT"

/-- The log is set up before anything else. Ids of requests come after `lastId`. -/
def run (lookup : String → Option String) (args : List String) (clock : Nat) (draws : Draws)
    (lastId : Nat) : Output :=
  match LogFilter.read? (lookup filterName), Arguments.read lookup args with
  | none, _ => { exit := brokenOff }
  | some _, .error .usage => { exit := 2, complaint := usage }
  | some _, .error .help => { complaint := usage }
  | some _, .error .version => { complaint := "fulfilment 0.1.0\n" }
  | some filter, .ok args =>
    match configOf lookup args with
    | .error f => { exit := 1, complaint := f.message }
    | .ok config =>
      let selected := match args.scenario with
        | some one => [one]
        | none => Scenario.all
      runAll config filter args selected { clock, draws, collaborators := { lastId } }

end Fulfilment.Session
