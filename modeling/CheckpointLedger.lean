import CheckpointLedger.Binary.Kind
import CheckpointLedger.Json.Kind
import CheckpointLedger.Registry.Disposal
import CheckpointLedger.Sharing.Kind
import CheckpointLedger.Sharing.Registration
import CheckpointLedger.Snapshot.Report
import CheckpointLedger.SortedMap.Lemmas
import CheckpointLedger.Proofs.Registry.Operations
import CheckpointLedger.Proofs.Registry.Run
import CheckpointLedger.Proofs.Registry.History
import CheckpointLedger.Proofs.Registry.Refinement
import CheckpointLedger.Proofs.Registry.Accounting
import CheckpointLedger.Proofs.Storage.Discards
import CheckpointLedger.Proofs.Sharing.SlotRun
import CheckpointLedger.Proofs.Sharing.Fleet
import CheckpointLedger.Proofs.Sharing.LiveFiles
import CheckpointLedger.Proofs.Sharing.Refusal
import CheckpointLedger.Proofs.Text.Utf8
import CheckpointLedger.Proofs.Registry.ObjectKeys
import CheckpointLedger.Proofs.Registry.DerivedKeys
import CheckpointLedger.Proofs.Registry.Growth
import CheckpointLedger.Proofs.Sharing.Traversal
import CheckpointLedger.Proofs.Sharing.Abort
import CheckpointLedger.Proofs.Sharing.Repetition
import CheckpointLedger.Proofs.Sharing.CanonicalSlots
import CheckpointLedger.Proofs.Snapshot.Leaves
import CheckpointLedger.Proofs.Storage.Removals
import CheckpointLedger.Proofs.Storage.Resolution
import CheckpointLedger.Proofs.Sharing.Restore
import CheckpointLedger.Proofs.Snapshot.Contents
import CheckpointLedger.Proofs.Snapshot.OperatorRecord
import CheckpointLedger.Proofs.Binary.Faithful
import CheckpointLedger.Proofs.Binary.RoundTrip
import CheckpointLedger.Proofs.Json.Quoted
import CheckpointLedger.Proofs.Json.Faithful
import CheckpointLedger.Proofs.Json.Records
import CheckpointLedger.Proofs.Json.RoundTrip
import CheckpointLedger.Proofs.Snapshot.Sizes
import CheckpointLedger.Proofs.Storage.Commutation
import CheckpointLedger.Proofs.Sharing.Background
import CheckpointLedger.Proofs.Sharing.Closing
import CheckpointLedger.Proofs.Sharing.Aggregate
import CheckpointLedger.Proofs.Storage.Unlinking
import CheckpointLedger.Proofs.Sharing.Discarding
import CheckpointLedger.Proofs.Sharing.Collecting
import CheckpointLedger.Proofs.Registry.Releases
import CheckpointLedger.Proofs.Registry.Uploads
import CheckpointLedger.Proofs.Registry.ImmediateDisposal
import CheckpointLedger.Proofs.Sharing.Places
import CheckpointLedger.Proofs.Snapshot.ExactSizes
import CheckpointLedger.Proofs.Sharing.RecordedSizes
import CheckpointLedger.Proofs.Sharing.CopyAlgebra
import CheckpointLedger.Proofs.Snapshot.Validation
import CheckpointLedger.Proofs.Binary.Reading
import CheckpointLedger.Proofs.Binary.Truncation
import CheckpointLedger.Proofs.Binary.Canonical
import CheckpointLedger.Proofs.Binary.Rows
import CheckpointLedger.Proofs.Binary.Drafting
import CheckpointLedger.Proofs.Binary.Rewritten
import CheckpointLedger.Proofs.Text.Display
import CheckpointLedger.Proofs.Storage.Spelling
import CheckpointLedger.Proofs.Registry.FileKeys
import CheckpointLedger.Proofs.Snapshot.KeyGroups
import CheckpointLedger.Proofs.Snapshot.OperatorId
