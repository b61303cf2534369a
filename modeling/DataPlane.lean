import DataPlane.Proofs.Accounting
import DataPlane.Proofs.Admission
import DataPlane.Proofs.CacheKey
import DataPlane.Proofs.Chunking
import DataPlane.Proofs.Collect
import DataPlane.Proofs.Conservation
import DataPlane.Proofs.Dispatch
import DataPlane.Proofs.Drains
import DataPlane.Proofs.EnsureModel
import DataPlane.Proofs.Estimate
import DataPlane.Proofs.Finished
import DataPlane.Proofs.Framing
import DataPlane.Proofs.Isolation
import DataPlane.Proofs.LeaseSafety
import DataPlane.Proofs.Limiters
import DataPlane.Proofs.Ownership
import DataPlane.Proofs.Payload
import DataPlane.Proofs.Policies
import DataPlane.Proofs.Resume
import DataPlane.Proofs.Survival
import DataPlane.Proofs.Timeouts
import DataPlane.Proofs.Undo
import DataPlane.Proofs.Usage
import DataPlane.Proofs.Windows
import DataPlane.Proofs.EventIds
import DataPlane.Proofs.Group
import DataPlane.Proofs.Draining
import DataPlane.Proofs.RateLimits
import DataPlane.Proofs.Catalog
import DataPlane.Proofs.Stopping
import DataPlane.Proofs.ControlPlane
import DataPlane.Proofs.ModelLifecycle
import DataPlane.Proofs.Reconnects
import DataPlane.Proofs.UnaryAnswer
import DataPlane.Proofs.Heartbeats
import DataPlane.Proofs.Synthetic
import DataPlane.Proofs.Streaming
