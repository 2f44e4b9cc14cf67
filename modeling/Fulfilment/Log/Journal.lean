import Fulfilment.Log.Remark

/-!
What can be observed of a run.

Main definitions:
- `Event`: jobs spawned, started and ended, sleeps, calls and their answers, remarks.
-/
namespace Fulfilment

set_option autoImplicit false

inductive Event where
  | spawned (j : Job)
  /-- Spawned, but never to be run. -/
  | dropped (j : Job)
  | started (j : Job)
  | ended (j : Job)
  | slept (d : Span)
  | called (c : Call)
  /-- The call was accepted. -/
  | answered (c : Call) (r : Receipt)
  | refused (c : Call) (f : Failure)
  /-- The collaborator panicked instead of answering. -/
  | panicked (c : Call)
  | remarked (r : Remark)

end Fulfilment
