import BearerGate.Main
import BearerGate.Proofs.Text.Parts
import BearerGate.Proofs.Trust.Canonical
import BearerGate.Proofs.Access.Matching
import BearerGate.Proofs.Access.Subtree
import BearerGate.Proofs.Cache.Change
import BearerGate.Proofs.Run.Change
import BearerGate.Proofs.Cache.Flight
import BearerGate.Proofs.Run.SingleFlight
import BearerGate.Proofs.Cache.Holds
import BearerGate.Proofs.Gate.Decided
import BearerGate.Proofs.Gate.Uncached
import BearerGate.Proofs.Run.Acceptance
import BearerGate.Proofs.Run.Transparency
import BearerGate.Proofs.Cache.Windows
import BearerGate.Proofs.Run.Windows
import BearerGate.Proofs.Run.Twins
import BearerGate.Proofs.Token.Tenant
import BearerGate.Proofs.Server.ForwardAuth
import BearerGate.Proofs.Run.Played
import BearerGate.Proofs.Cache.Frame
import BearerGate.Proofs.Run.Returned
import BearerGate.Proofs.Run.Trace
import BearerGate.Proofs.Trust.Accepted
import BearerGate.Proofs.Gate.Frame
import BearerGate.Proofs.Run.Confined
import BearerGate.Proofs.Run.Refresh
import BearerGate.Proofs.Run.Waiting
import BearerGate.Proofs.Run.Generations
import BearerGate.Proofs.Run.ShortCircuit
import BearerGate.Proofs.Cache.Renumbered
import BearerGate.Proofs.Picked
import BearerGate.Proofs.Run.Alone
import BearerGate.Proofs.Run.Isolation
import BearerGate.Proofs.Run.SlotStep
import BearerGate.Proofs.Run.History
import BearerGate.Proofs.Run.Backoff
import BearerGate.Proofs.Run.Eviction
import BearerGate.Proofs.Run.Throttle
import BearerGate.Proofs.Run.Rejected
import BearerGate.Proofs.Token.Passes
import BearerGate.Proofs.Config.Honoured
import BearerGate.Proofs.Config.Tenants
import BearerGate.Proofs.Trust.Spelling
import BearerGate.Proofs.Key.Skipped
import BearerGate.Proofs.Server.Identified
import BearerGate.Proofs.Cache.Tally
import BearerGate.Proofs.Gate.Counts
import BearerGate.Proofs.Run.Counts
import BearerGate.Proofs.Run.Conserved
import BearerGate.Proofs.Key.Suited
import BearerGate.Proofs.Key.Order
import BearerGate.Proofs.Run.OwnStarts
import BearerGate.Proofs.Run.Resolution
import BearerGate.Proofs.Cache.Sweep
import BearerGate.Proofs.Run.Swept
import BearerGate.Proofs.Token.Faults
import BearerGate.Proofs.Access.Canonical
import BearerGate.Proofs.Access.Disguise
import BearerGate.Proofs.Access.Translated
import BearerGate.Proofs.Config.Service
import BearerGate.Proofs.Token.Roles
import BearerGate.Proofs.Token.Survival
import BearerGate.Proofs.Config.Expansion
import BearerGate.Proofs.Json.Number
import BearerGate.Proofs.Json.Readable
import BearerGate.Proofs.Json.Reread
import BearerGate.Proofs.Json.Sorted
import BearerGate.Proofs.Issuer.Freshness
