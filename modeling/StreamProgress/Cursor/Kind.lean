import StreamProgress.Json.Vocabulary

/-!
# Kinds of cursors, and why two cursors cannot be combined

Two kinds of cursor are plain positions, `sequence` and `partitionOffsets`; two wrap other
cursors, `replay` and `merged`. A plain position compares only with a position of its own kind,
and a wrapping cursor passes on the fault of the plain position inside it that refused.
-/

namespace StreamProgress

/-- The kinds of cursors. -/
inductive Kind where
  | sequence
  | partitionOffsets
  | replay
  | merged
  deriving DecidableEq, Repr, Inhabited

namespace Kind

/-- The name of a kind, in messages and as the tag of a written cursor. -/
def name : Kind → String
  | .sequence => "sequence"
  | .partitionOffsets => "partition_offsets"
  | .replay => "replay"
  | .merged => "merged"

/-- The kinds by name, in their fixed order. -/
def vocabulary : Json.Vocabulary Kind where
  entries := [Kind.sequence, .partitionOffsets, .replay, .merged].map fun k => (k.name, k)

/-- Whether cursors of a kind wrap other cursors. -/
def wraps : Kind → Bool
  | .sequence | .partitionOffsets => false
  | .replay | .merged => true

theorem find_name (k : Kind) : vocabulary.find k.name = .ok k := by
  cases k <;> rfl

end Kind

/-- Why an operation on cursors has no result. -/
inductive CursorFault where
  /-- A plain position met a cursor of another kind. -/
  | incompatible (expected found : Kind)
  /-- A merge of two absent halves is no cursor. -/
  | emptyMerge
  deriving DecidableEq, Repr

/-- The wording of a fault. -/
def CursorFault.message : CursorFault → String
  | .incompatible expected found =>
    expected.name ++ " cursor cannot be compared with a " ++ found.name ++ " cursor"
  | .emptyMerge => Json.Mismatch.emptyMerge.message

end StreamProgress
