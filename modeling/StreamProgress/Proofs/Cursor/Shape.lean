import StreamProgress.Cursor.Basic

/-!
# The shape of a cursor

Cursors are trees, and what is proved of all of them is proved along the tree. `Cursor.recHalves`
is the induction that goes with definitions by recursion on a cursor and its optional parts: the
hypothesis for an optional part is about the cursor in it, if there is one.

The other definitions are views of the tree that say nothing about any operation.

## Main definitions

* `Cursor.leaves` — the plain positions that progress is made of, reset points left out
* `Cursor.wellFormed` — no merged cursor in the tree has two absent halves
* `Cursor.depth` — how deep the brackets of the written form are nested
-/

namespace StreamProgress

namespace Cursor

/-- Induction along the tree of a cursor. -/
@[induction_eliminator]
theorem recHalves {motive : Cursor → Prop} (plain : ∀ p, motive (.plain p))
    (replay : ∀ reset current replaying, motive reset → (∀ c ∈ current, motive c) →
      motive (.replay reset current replaying))
    (merged : ∀ lower upper lowerAdvanced upperAdvanced, (∀ c ∈ lower, motive c) →
      (∀ c ∈ upper, motive c) → motive (.merged lower upper lowerAdvanced upperAdvanced))
    (c : Cursor) : motive c :=
  @Cursor.rec motive (fun o => ∀ c ∈ o, motive c) plain replay merged nofun
    (fun _ h _ hd => Option.some.inj hd ▸ h) c

/-- What holds of an absent half and of a cursor that is present holds of a half. -/
@[elab_as_elim]
theorem forall_half {P : Option Cursor → Prop} (half : Option Cursor) (hnone : P none)
    (hsome : ∀ c ∈ half, P (some c)) : P half := by
  cases half with
  | none => exact hnone
  | some c => exact hsome c rfl

mutual

/-- The positions at the leaves of a cursor, and `none` for every absent part. What a replay had
read before its reset is no part of its progress. -/
def leaves : Cursor → List (Option Position)
  | .plain p => [some p]
  | .replay _ current _ => leavesOf current
  | .merged lower upper _ _ => leavesOf lower ++ leavesOf upper

/-- The positions at the leaves of an optional cursor. -/
def leavesOf : Option Cursor → List (Option Position)
  | none => [none]
  | some c => leaves c

end

mutual

/-- Whether no merged cursor, at any depth, has two absent halves. -/
def wellFormed : Cursor → Bool
  | .plain _ => true
  | .replay reset current _ => wellFormed reset && halfWellFormed current
  | .merged lower upper _ _ =>
    (lower.isSome || upper.isSome) && halfWellFormed lower && halfWellFormed upper

/-- Whether an optional cursor, if it is present, has no empty merge in it. -/
def halfWellFormed : Option Cursor → Bool
  | none => true
  | some c => wellFormed c

end

mutual

/-- How deep the brackets of the written form of a cursor are nested. -/
def depth : Cursor → Nat
  | .plain (.sequence _) => 1
  | .plain (.partitions _) => 2
  | .replay reset current _ => 1 + max (depth reset) (depthOf current)
  | .merged lower upper _ _ => 1 + max (depthOf lower) (depthOf upper)

/-- How deep the brackets of the written form of an optional cursor are nested. -/
def depthOf : Option Cursor → Nat
  | none => 0
  | some c => depth c

end

end Cursor

end StreamProgress
