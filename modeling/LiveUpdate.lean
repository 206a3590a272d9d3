import LiveUpdate.Instruction.Assembler
import LiveUpdate.Instruction.Description
import LiveUpdate.Proofs.Accounts
import LiveUpdate.Proofs.Advances
import LiveUpdate.Proofs.Ancestry
import LiveUpdate.Proofs.Assembling
import LiveUpdate.Proofs.Atomicity
import LiveUpdate.Proofs.Bodies
import LiveUpdate.Proofs.Bookkeeping
import LiveUpdate.Proofs.BuiltClasses
import LiveUpdate.Proofs.CallDepth
import LiveUpdate.Proofs.Catchers
import LiveUpdate.Proofs.Coding
import LiveUpdate.Proofs.Coherence
import LiveUpdate.Proofs.Computation
import LiveUpdate.Proofs.Concurring
import LiveUpdate.Proofs.ConcurringRuns
import LiveUpdate.Proofs.ConformingExecutors
import LiveUpdate.Proofs.ConstructorCalls
import LiveUpdate.Proofs.Containment
import LiveUpdate.Proofs.ControlFlow
import LiveUpdate.Proofs.Corruption
import LiveUpdate.Proofs.Courses
import LiveUpdate.Proofs.CurrentMetadata
import LiveUpdate.Proofs.Defining
import LiveUpdate.Proofs.DerivedBodies
import LiveUpdate.Proofs.Digests
import LiveUpdate.Proofs.DispatchEntries
import LiveUpdate.Proofs.DynamicCalls
import LiveUpdate.Proofs.Edit
import LiveUpdate.Proofs.Enrolling
import LiveUpdate.Proofs.EntryChecks
import LiveUpdate.Proofs.EqualShapes
import LiveUpdate.Proofs.Evolution
import LiveUpdate.Proofs.Evolving
import LiveUpdate.Proofs.EvolvingRuns
import LiveUpdate.Proofs.EvolvingUses
import LiveUpdate.Proofs.ExecutorEntries
import LiveUpdate.Proofs.ExecutorMembers
import LiveUpdate.Proofs.Faces
import LiveUpdate.Proofs.Facing
import LiveUpdate.Proofs.Forwarding
import LiveUpdate.Proofs.Frames
import LiveUpdate.Proofs.Growth
import LiveUpdate.Proofs.GuardedAccess
import LiveUpdate.Proofs.Guards
import LiveUpdate.Proofs.HeapTypes
import LiveUpdate.Proofs.HeapTyping
import LiveUpdate.Proofs.History
import LiveUpdate.Proofs.HostMembers
import LiveUpdate.Proofs.Hosting
import LiveUpdate.Proofs.IdleReloads
import LiveUpdate.Proofs.InheritedFields
import LiveUpdate.Proofs.InheritedMethods
import LiveUpdate.Proofs.Initialization
import LiveUpdate.Proofs.InitializationOrder
import LiveUpdate.Proofs.Insertion
import LiveUpdate.Proofs.InstructionCoding
import LiveUpdate.Proofs.Instrumenting
import LiveUpdate.Proofs.InterfaceDefaults
import LiveUpdate.Proofs.Interfaces
import LiveUpdate.Proofs.KeptFlow
import LiveUpdate.Proofs.Labels
import LiveUpdate.Proofs.LawfulCalls
import LiveUpdate.Proofs.Laws
import LiveUpdate.Proofs.Leads
import LiveUpdate.Proofs.Lineage
import LiveUpdate.Proofs.LinkedFields
import LiveUpdate.Proofs.Metadata
import LiveUpdate.Proofs.Names
import LiveUpdate.Proofs.NearestDeclarations
import LiveUpdate.Proofs.Numbering
import LiveUpdate.Proofs.Observing
import LiveUpdate.Proofs.Overriding
import LiveUpdate.Proofs.OwnEntries
import LiveUpdate.Proofs.Parallel
import LiveUpdate.Proofs.PassedCalls
import LiveUpdate.Proofs.PrivateCalls
import LiveUpdate.Proofs.Provenance
import LiveUpdate.Proofs.Reachable
import LiveUpdate.Proofs.Rebuilding
import LiveUpdate.Proofs.Receivers
import LiveUpdate.Proofs.Recordings
import LiveUpdate.Proofs.Recounting
import LiveUpdate.Proofs.Redirection
import LiveUpdate.Proofs.Reflecting
import LiveUpdate.Proofs.Refusals
import LiveUpdate.Proofs.Reloading
import LiveUpdate.Proofs.Relocation
import LiveUpdate.Proofs.Remembering
import LiveUpdate.Proofs.Resolving
import LiveUpdate.Proofs.Resting
import LiveUpdate.Proofs.Routing
import LiveUpdate.Proofs.Running
import LiveUpdate.Proofs.SameMethods
import LiveUpdate.Proofs.Searching
import LiveUpdate.Proofs.Seating
import LiveUpdate.Proofs.Selection
import LiveUpdate.Proofs.Showing
import LiveUpdate.Proofs.Signatures
import LiveUpdate.Proofs.Skeleton
import LiveUpdate.Proofs.SlotLayouts
import LiveUpdate.Proofs.SpecialCalls
import LiveUpdate.Proofs.Stepping
import LiveUpdate.Proofs.StoreMaps
import LiveUpdate.Proofs.StoreReads
import LiveUpdate.Proofs.StoredFields
import LiveUpdate.Proofs.SuperDispatchers
import LiveUpdate.Proofs.Survival
import LiveUpdate.Proofs.Table
import LiveUpdate.Proofs.Transparency
import LiveUpdate.Proofs.Traversal
import LiveUpdate.Proofs.Truncation
import LiveUpdate.Proofs.Turns
import LiveUpdate.Proofs.TypeTests
import LiveUpdate.Proofs.UnitCoding
import LiveUpdate.Proofs.Verified
import LiveUpdate.Proofs.Verifying
import LiveUpdate.Proofs.Wiring
import LiveUpdate.Report.State
import LiveUpdate.Unit.Builder
