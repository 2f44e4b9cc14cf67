import Fulfilment.CommandLine.Session
import Fulfilment.Json.Writer
import Std.Time.DateTime.Timestamp

/-!
The command line.
-/
namespace Fulfilment

set_option autoImplicit false

def Session.Line.text (format : LogFormat) : Session.Line → String
  | .report r => r.toJson.indented
  | .log l =>
    match format with
    | .json => l.toJson.write
    | .pretty => l.words

end Fulfilment

open Fulfilment in
def main (args : List String) : IO UInt32 := do
  let names := Session.filterName :: Session.formatName :: Arguments.workersName ::
    Setting.all.map Setting.name
  let values ← names.mapM fun name => return (name, ← IO.getEnv name)
  let lookup (name : String) : Option String := (values.lookup name).join
  let now ← Std.Time.Timestamp.now
  let seed ← IO.rand 1 (Draws.states - 1)
  let nanos := now.toNanosecondsSinceUnixEpoch.val.toNat
  let lastId := TransactionId.timeOrdered (nanos / 1000000) (← IO.rand 0 4095)
    (← IO.rand 0 0x3FFFFFFF00000000)
  let output := Session.run lookup args nanos { seed } lastId.value
  let format := LogFormat.read (lookup Session.formatName)
  for line in output.lines do
    IO.println (line.text format)
  unless output.complaint.isEmpty do
    if output.exit = 0 then IO.print output.complaint else IO.eprint output.complaint
  return output.exit.toUInt32
