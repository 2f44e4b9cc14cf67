import Fulfilment.Main
import Fulfilment.Pool.Rehearsal
import Fulfilment.Config.Coding
import Fulfilment.Json.Reader
import Fulfilment.Proofs.Inline.Convergence
import Fulfilment.Proofs.Inline.Ending
import Fulfilment.Proofs.Payment.Limbo
import Fulfilment.Proofs.Payment.Once
import Fulfilment.Proofs.Queue.Removal
import Fulfilment.Proofs.Message.Duty
import Fulfilment.Proofs.Queue.Loop
import Fulfilment.Proofs.Notice.Agreement
import Fulfilment.Proofs.Shipping.Unaccepted
import Fulfilment.Proofs.Notice.Shown
import Fulfilment.Proofs.Employee.Once
import Fulfilment.Proofs.History.Consistency
import Fulfilment.Proofs.History.WindDown
import Fulfilment.Proofs.Retry.Bound
import Fulfilment.Proofs.Pool.Interleaving
import Fulfilment.Proofs.Faultless.Confluence
import Fulfilment.Proofs.Config.Lookup
import Fulfilment.Proofs.Retry.Pace
import Fulfilment.Proofs.Retry.Stage
import Fulfilment.Proofs.Payment.Settled
import Fulfilment.Proofs.Storeless.Foretold
import Fulfilment.Proofs.Config.Coding
import Fulfilment.Proofs.Register.Searches
import Fulfilment.Proofs.Records.Archive
