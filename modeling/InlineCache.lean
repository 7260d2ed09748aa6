import InlineCache.Heap.Describe
import InlineCache.Stub.Builder
import InlineCache.Stub.Serial
import InlineCache.Code.Listing
import InlineCache.Emit.Call
import InlineCache.Tier.Runtime
import InlineCache.Proofs.Emit.Aliasing
import InlineCache.Proofs.Emit.Sessions
import InlineCache.Proofs.Tier.Transparent
import InlineCache.Proofs.Emit.Capacity
import InlineCache.Proofs.Emit.WellFormed
import InlineCache.Proofs.Acceptance
import InlineCache.Proofs.Op.RoundTrip
import InlineCache.Proofs.Stub.Building
import InlineCache.Proofs.Emit.Sharing
import InlineCache.Proofs.Emit.Restored
import InlineCache.Proofs.Policies
import InlineCache.Proofs.Framing
import InlineCache.Proofs.ValueGuards
import InlineCache.Proofs.Eval.Assignment
import InlineCache.Proofs.Eval.Dispatch
import InlineCache.Proofs.Tier.Accounts
import InlineCache.Proofs.Heap.Growth
import InlineCache.Proofs.Mitigation
import InlineCache.Proofs.Eval.Roots
import InlineCache.Proofs.Heap.Tracing
import InlineCache.Proofs.Stub.Stored
import InlineCache.Proofs.Emit.Joined
import InlineCache.Proofs.Emit.ExitCode
import InlineCache.Proofs.RegExp.CallOuts
import InlineCache.Proofs.Number.Guards
import InlineCache.Proofs.Number.Clamping
import InlineCache.Proofs.Number.IndexTrip
import InlineCache.Proofs.Stub.Fields
import InlineCache.Proofs.Code.RegisterMembers
import InlineCache.Proofs.Boxing
import InlineCache.Proofs.Emit.Frugal
import InlineCache.Proofs.Emit.Seats
