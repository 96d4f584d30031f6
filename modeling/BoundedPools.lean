import BoundedPools.Config.Environment
import BoundedPools.Config.Writer
import BoundedPools.Rehearsal.Built
import BoundedPools.Rehearsal.StandIn
import BoundedPools.Proofs.Object.Conservation
import BoundedPools.Proofs.Object.Refill
import BoundedPools.Proofs.Resource.Capacity
import BoundedPools.Proofs.Worker.Channel.Conservation
import BoundedPools.Proofs.Worker.Channel.Draining
import BoundedPools.Proofs.Worker.Decorated.Lifting
import BoundedPools.Proofs.Worker.Decorated.Utilization
import BoundedPools.Proofs.Worker.Fleet
import BoundedPools.Proofs.Worker.Recycling.ExactlyOnce
import BoundedPools.Proofs.Worker.Recycling.Staffing
import BoundedPools.Proofs.Worker.Shelf.Conservation
import BoundedPools.Proofs.Object.OneAtATime
import BoundedPools.Proofs.Object.Stock
import BoundedPools.Proofs.Worker.Errors
import BoundedPools.Proofs.Config.Agreement
import BoundedPools.Proofs.Json.Lexemes
import BoundedPools.Proofs.Json.Scanning
import BoundedPools.Proofs.Json.Trees
import BoundedPools.Proofs.Config.Members
import BoundedPools.Proofs.Config.Arrangement
import BoundedPools.Proofs.Config.RoundTrip
import BoundedPools.Proofs.Config.Forms
import BoundedPools.Proofs.Object.Exhaustion
import BoundedPools.Proofs.Resource.Retirement
import BoundedPools.Proofs.Resource.Checkouts
import BoundedPools.Proofs.Object.PrivateSlot
import BoundedPools.Proofs.Object.OwnShard
import BoundedPools.Proofs.Object.OneFiller
import BoundedPools.Proofs.Object.Restocking
import BoundedPools.Proofs.Worker.Recycling.Backpressure
import BoundedPools.Proofs.Worker.Recycling.Order
import BoundedPools.Proofs.Metrics.Sums
import BoundedPools.Proofs.Metrics.Identity
import BoundedPools.Proofs.Random.Stripes
import BoundedPools.Proofs.Object.Layout
