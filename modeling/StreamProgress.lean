import StreamProgress.Main
import StreamProgress.Double.Basic
import StreamProgress.Double.Shortest
import StreamProgress.Proofs.Cursor.IndexTree
import StreamProgress.Proofs.Cursor.Leaves
import StreamProgress.Proofs.Cursor.MergeTree
import StreamProgress.Proofs.Cursor.Layout
import StreamProgress.Proofs.Cursor.ReadBack
import StreamProgress.Proofs.Json.Spelling
import StreamProgress.Proofs.Json.Number
import StreamProgress.Proofs.Json.Written
import StreamProgress.Proofs.Json.Exact
import StreamProgress.Proofs.Json.ReadBack
import StreamProgress.Proofs.Tracker.Coverage
import StreamProgress.Proofs.Tracker.Run
import StreamProgress.Proofs.Tracker.Session
import StreamProgress.Proofs.Cursor.Replay
import StreamProgress.Proofs.Cursor.Rewind
import StreamProgress.Proofs.Checkpoint
import StreamProgress.Proofs.Cursor.Bounds
import StreamProgress.Proofs.Position.Number
import StreamProgress.Proofs.Cursor.Raising
import StreamProgress.Proofs.Cursor.Lattice
import StreamProgress.Proofs.Cursor.FloorCeiling
import StreamProgress.Proofs.Cursor.Faults
import StreamProgress.Proofs.Cursor.Reading
import StreamProgress.Proofs.Tracker.Bounds
import StreamProgress.Proofs.Tracker.Faults
import StreamProgress.Proofs.Tracker.Completion
import StreamProgress.Proofs.Cursor.Nesting
import StreamProgress.Proofs.Tracker.Restoring
import StreamProgress.Proofs.Cursor.Mirror
import StreamProgress.Proofs.Journal.Lines
import StreamProgress.Proofs.Tracker.History
import StreamProgress.Proofs.Tracker.Mirror
import StreamProgress.Proofs.Journal.Retention
import StreamProgress.Proofs.Cursor.Moved
import StreamProgress.Proofs.Cursor.Reload
import StreamProgress.Proofs.Checkpoint.Integrity
import StreamProgress.Proofs.Text.ByteOrder
import StreamProgress.Proofs.Cursor.Updates
import StreamProgress.Proofs.Tracker.Numbers
import StreamProgress.Proofs.Journal.ReadBack
import StreamProgress.Proofs.Journal.Packing
import StreamProgress.Proofs.Config
import StreamProgress.Proofs.Command
