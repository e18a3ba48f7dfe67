import Harvesting.Main
import Harvesting.Proofs.Cycle.Accounts
import Harvesting.Proofs.Cycle.Idle
import Harvesting.Proofs.Cycle.Laps
import Harvesting.Proofs.Cycle.LeftBehind
import Harvesting.Proofs.Cycle.OnDisk
import Harvesting.Proofs.Cycle.Rejected
import Harvesting.Proofs.Cycle.Tiling
import Harvesting.Proofs.Cycle.Together
import Harvesting.Proofs.Cycle.Turns
import Harvesting.Proofs.Cycle.Undisturbed
import Harvesting.Proofs.Output.Applied
import Harvesting.Proofs.Output.Barrier
import Harvesting.Proofs.Output.Closed
import Harvesting.Proofs.Output.Encoding
import Harvesting.Proofs.Output.Excerpt
import Harvesting.Proofs.Plan.CatchUp
import Harvesting.Proofs.Protocol.Foreign
import Harvesting.Proofs.Protocol.Value
import Harvesting.Proofs.Protocol.WrittenOut
import Harvesting.Proofs.Schedule.First
import Harvesting.Proofs.Store.Exact
import Harvesting.Proofs.Store.Interrupted
import Harvesting.Proofs.Store.Returning
import Harvesting.Proofs.Web.Address
import Harvesting.Rehearsal.Basic
import Harvesting.Rehearsal.Site
