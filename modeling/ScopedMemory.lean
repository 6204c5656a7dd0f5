import ScopedMemory.Drain
import ScopedMemory.Program.Run
import ScopedMemory.Proofs.Draining
import ScopedMemory.Proofs.Registration
import ScopedMemory.Proofs.Histories
import ScopedMemory.Proofs.Moving
import ScopedMemory.Proofs.Writing
import ScopedMemory.Proofs.Atomicity
import ScopedMemory.Proofs.Copying
import ScopedMemory.Proofs.Keeping
import ScopedMemory.Proofs.Growth
import ScopedMemory.Proofs.Effects
import ScopedMemory.Proofs.Releasing
import ScopedMemory.Proofs.LettingGo
import ScopedMemory.Proofs.Performing
import ScopedMemory.Proofs.TidyRuns
import ScopedMemory.Proofs.Derivation
import ScopedMemory.Proofs.Obtaining
import ScopedMemory.Proofs.Allocations
import ScopedMemory.Proofs.Waning
import ScopedMemory.Proofs.Guarding
import ScopedMemory.Proofs.Confinement
import ScopedMemory.Proofs.Reading
import ScopedMemory.Proofs.Holds
import ScopedMemory.Proofs.Moves
import ScopedMemory.Proofs.CleanupRuns
import ScopedMemory.Proofs.Orderly
import ScopedMemory.Proofs.Hooks
import ScopedMemory.Proofs.Accesses
import ScopedMemory.Proofs.Operating
import ScopedMemory.Proofs.Watching
import ScopedMemory.Proofs.ExactlyOnce
import ScopedMemory.Proofs.Inertness
import ScopedMemory.Proofs.GuardAccounting
import ScopedMemory.Proofs.Elementwise
import ScopedMemory.Proofs.RoundTrip
import ScopedMemory.Proofs.Turning
import ScopedMemory.Proofs.Admission
import ScopedMemory.Proofs.Cutting
import ScopedMemory.Proofs.Partition
import ScopedMemory.Proofs.FirstFit
import ScopedMemory.Proofs.Compounds
import ScopedMemory.Proofs.Precedence
import ScopedMemory.Proofs.Acts
import ScopedMemory.Proofs.Acting
import ScopedMemory.Proofs.Ownership
import ScopedMemory.Proofs.CloseGraph
import ScopedMemory.Proofs.Cascade
import ScopedMemory.Proofs.Rounding
import ScopedMemory.Proofs.Bumping
import ScopedMemory.Proofs.Sealing
import ScopedMemory.Proofs.SealedRuns
import ScopedMemory.Proofs.Views
import ScopedMemory.Proofs.Granting
import ScopedMemory.Proofs.Orders
import ScopedMemory.Proofs.Decoding
import ScopedMemory.Proofs.Filling
import ScopedMemory.Proofs.Serving
import ScopedMemory.Proofs.Panics
import ScopedMemory.Proofs.Texts
import ScopedMemory.Proofs.Comparison
import ScopedMemory.Proofs.Addresses
import ScopedMemory.Proofs.Overlaps
import ScopedMemory.Proofs.Policies
import ScopedMemory.Proofs.Configuration
import ScopedMemory.Proofs.Patterns
import ScopedMemory.Proofs.Codec
import ScopedMemory.Proofs.Strictness
