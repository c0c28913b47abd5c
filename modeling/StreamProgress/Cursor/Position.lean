import StreamProgress.Count
import StreamProgress.Cursor.Kind
import StreamProgress.NameMap

/-!
# Plain positions

A position says how far a segment has been read. In a globally ordered stream that is the index
of an entry. In a stream that is ordered only within each partition it is an offset for every
partition, and a partition that is not mentioned has not been read at all, which is less than
offset zero.

Positions of one kind are partially ordered by `covers`: a position covers another if everything
up to the other has been read. Offsets are compared partition by partition, so of two positions
neither may cover the other. `meet` is the greatest position that both cover and `join` the least
one that covers both.

## Main definitions

* `Offsets` — partition offsets, with `Offsets.raise`, `meet`, `join`, `covers`, `total`
* `Position` — an index or partition offsets; combining the two kinds is a `CursorFault`

## Main results

* `Offsets.get?_raise`, `get?_meet`, `get?_join` — the operations, partition by partition
* `Offsets.covers_iff` — coverage, partition by partition
-/

namespace StreamProgress

/-- Offsets by partition. -/
abbrev Offsets := NameMap UInt64

namespace Offsets

/-- The offsets with `partition` moved to at least `offset`; an offset is never lowered. -/
def raise (a : Offsets) (partition : String) (offset : UInt64) : Offsets :=
  a.alter partition fun
    | none => offset
    | some mine => max mine offset

/-- What both have read. -/
def meet (a b : Offsets) : Offsets := NameMap.intersect min a b

/-- What one of the two has read. -/
def join (a b : Offsets) : Offsets :=
  b.entries.foldl (fun joined e => raise joined e.1 e.2) a

/-- Whether every partition of `b` has been read at least as far in `a`. -/
def covers (a b : Offsets) : Bool :=
  b.entries.all fun e =>
    match a.get? e.1 with
    | none => false
    | some mine => e.2 ≤ mine

/-- The sum of the offsets, which stops at the largest count. -/
def total (a : Offsets) : UInt64 :=
  a.entries.foldl (fun sum e => Count.add sum e.2) 0

/-! ### Partition by partition -/

theorem get?_raise (a : Offsets) (partition other : String) (offset : UInt64) :
    (raise a partition offset).get? other =
      if partition = other then Option.merge max (a.get? partition) (some offset)
      else a.get? other := by
  rw [raise, NameMap.get?_alter]
  cases a.get? partition <;> rfl

theorem get?_meet (a b : Offsets) (partition : String) :
    (meet a b).get? partition =
      (a.get? partition).bind fun m => (b.get? partition).map fun n => min m n :=
  NameMap.get?_intersect min a b partition

private theorem get?_foldl_raise (partition : String) {entries : List (String × UInt64)}
    (h : entries.Pairwise fun a b => a.1 < b.1) (a : Offsets) :
    (entries.foldl (fun joined e => raise joined e.1 e.2) a).get? partition =
      Option.merge max (a.get? partition) (NameMap.lookup partition entries) := by
  induction entries generalizing a with
  | nil => cases ha : a.get? partition <;> simp [NameMap.lookup, ha]
  | cons e rest ih =>
    obtain ⟨name, offset⟩ := e
    obtain ⟨hd, hrest⟩ := List.pairwise_cons.1 h
    rw [List.foldl_cons, ih hrest, get?_raise]
    by_cases hn : name = partition
    · subst hn
      rw [NameMap.lookup_eq_none_of_lt hd]
      cases a.get? name <;> simp [NameMap.lookup]
    · simp [NameMap.lookup, hn]

theorem get?_join (a b : Offsets) (partition : String) :
    (join a b).get? partition = Option.merge max (a.get? partition) (b.get? partition) :=
  get?_foldl_raise partition b.ascending a

theorem covers_iff {a b : Offsets} :
    covers a b = true ↔
      ∀ partition n, b.get? partition = some n → ∃ m, a.get? partition = some m ∧ n ≤ m := by
  simp only [covers, List.all_eq_true]
  constructor
  · intro h partition n hn
    have he := h (partition, n) (NameMap.mem_entries_iff.2 hn)
    cases ha : a.get? partition with
    | none => simp [ha] at he
    | some m => exact ⟨m, rfl, by simpa [ha] using he⟩
  · intro h e he
    obtain ⟨m, hm, hle⟩ := h e.1 e.2 (NameMap.mem_entries_iff.1 he)
    simp [hm, hle]

end Offsets

/-- A position that wraps no other. -/
inductive Position where
  /-- The index of the last entry that was read. -/
  | sequence (index : UInt64)
  /-- The offset of the last entry that was read, for every partition that was started. -/
  | partitions (offsets : Offsets)
  deriving DecidableEq

namespace Position

/-- The kind of a position. -/
def kind : Position → Kind
  | .sequence _ => .sequence
  | .partitions _ => .partitionOffsets

/-- The fault of a position that meets another kind of position. -/
def clash (p q : Position) : CursorFault := .incompatible p.kind q.kind

/-- What both positions have read. -/
def meet : Position → Position → Except CursorFault Position
  | .sequence i, .sequence j => .ok (.sequence (min i j))
  | .partitions a, .partitions b => .ok (.partitions (a.meet b))
  | p, q => .error (clash p q)

/-- What one of the positions has read. -/
def join : Position → Position → Except CursorFault Position
  | .sequence i, .sequence j => .ok (.sequence (max i j))
  | .partitions a, .partitions b => .ok (.partitions (a.join b))
  | p, q => .error (clash p q)

/-- Whether the first position has read everything up to the second. -/
def covers : Position → Position → Except CursorFault Bool
  | .sequence i, .sequence j => .ok (j ≤ i)
  | .partitions a, .partitions b => .ok (a.covers b)
  | p, q => .error (clash p q)

/-- One number for a position: the index, or the sum of the offsets. -/
def number : Position → UInt64
  | .sequence i => i
  | .partitions a => a.total

end Position

end StreamProgress
