import Offload.Interval.Reader
import Offload.Proofs.Aggregate.Changes
import Offload.Proofs.Filter.Bindings
import Offload.Proofs.Filter.Building
import Offload.Proofs.Filter.Faults
import Offload.Proofs.Filter.Readable
import Offload.Proofs.Filter.Replay
import Offload.Proofs.Filter.Truth
import Offload.Proofs.Interval.Display
import Offload.Proofs.Plan.Chain
import Offload.Proofs.Plan.Checks
import Offload.Proofs.Plan.Declaration
import Offload.Proofs.Plan.Description
import Offload.Proofs.Plan.EmptyGroup
import Offload.Proofs.Plan.Reads
import Offload.Proofs.Plan.Rows
import Offload.Proofs.Plan.Scan
import Offload.Proofs.Plan.SelectItems
import Offload.Proofs.Plan.Session
import Offload.Proofs.Setting
import Offload.Proofs.Sql.Pattern
