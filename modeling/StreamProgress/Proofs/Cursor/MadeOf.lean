import StreamProgress.Proofs.Cursor.Bounds

/-!
# What cursors are made of

The positions of a cursor stand in its halves, in the progress of its replays and in their reset
points. `Cursor.MadeOf P` says that all of them are `P`, and that no merge in the cursor is empty, so
that there are positions at all. If `P` holds of every position it says that the cursor is well
formed. Flags do not matter to it.

## Main definitions

* `Cursor.MadeOf` — all plain parts of a cursor are `P`, and none of its merges is empty
* `Cursor.parts` — the plain parts of a cursor

## Main results

* `Cursor.madeOf_iff` — the two halves of it
* `Cursor.madeOf_iff_wellFormed`, `madeOf_bare` — well-formed cursors, and flags
* `Cursor.MadeOf.merge` — two halves put together
-/

namespace StreamProgress

namespace Cursor

variable {c d : Cursor} {half lower upper current : Option Cursor} {P : Position → Prop}

/-- A cursor whose plain parts, in halves, in progress and in reset points, are all `P`, and in which
no merged cursor has two absent halves. -/
inductive MadeOf (P : Position → Prop) : Cursor → Prop
  | plain {p : Position} (hp : P p) : MadeOf P (.plain p)
  | replay {reset : Cursor} {current : Option Cursor} {replaying : Bool} (hreset : MadeOf P reset)
      (hcurrent : ∀ c ∈ current, MadeOf P c) : MadeOf P (.replay reset current replaying)
  | merged {lower upper : Option Cursor} {lowerAdvanced upperAdvanced : Bool}
      (hpresent : (lower.isSome || upper.isSome) = true) (hlower : ∀ c ∈ lower, MadeOf P c)
      (hupper : ∀ c ∈ upper, MadeOf P c) :
      MadeOf P (.merged lower upper lowerAdvanced upperAdvanced)

theorem madeOf_plain_iff {p : Position} : (plain p).MadeOf P ↔ P p := by
  constructor
  · intro h
    cases h with
    | plain hp => exact hp
  · exact .plain

theorem madeOf_replay_iff {reset : Cursor} {replaying : Bool} :
    (replay reset current replaying).MadeOf P ↔
      reset.MadeOf P ∧ ∀ c ∈ current, MadeOf P c := by
  constructor
  · intro h
    cases h with
    | replay hreset hcurrent => exact ⟨hreset, hcurrent⟩
  · rintro ⟨hreset, hcurrent⟩
    exact .replay hreset hcurrent

theorem madeOf_merged_iff {lowerAdvanced upperAdvanced : Bool} :
    (merged lower upper lowerAdvanced upperAdvanced).MadeOf P ↔
      (lower.isSome || upper.isSome) = true ∧ (∀ c ∈ lower, MadeOf P c) ∧
        ∀ c ∈ upper, MadeOf P c := by
  constructor
  · intro h
    cases h with
    | merged hpresent hlower hupper => exact ⟨hpresent, hlower, hupper⟩
  · rintro ⟨hpresent, hlower, hupper⟩
    exact .merged hpresent hlower hupper

theorem halfWellFormed_iff : halfWellFormed half = true ↔ ∀ c ∈ half, c.wellFormed = true := by
  cases half with
  | none => simp [halfWellFormed]
  | some c => simp [halfWellFormed]

/-- A cursor is well formed iff it is made of any positions. -/
theorem madeOf_iff_wellFormed : c.MadeOf (fun _ => True) ↔ c.wellFormed = true := by
  have hhalf : ∀ {half : Option Cursor},
      (∀ c ∈ half, c.MadeOf (fun _ => True) ↔ c.wellFormed = true) →
        ((∀ c ∈ half, c.MadeOf fun _ => True) ↔ halfWellFormed half = true) := by
    intro half ih
    rw [halfWellFormed_iff]
    exact forall₂_congr ih
  induction c with
  | plain p => simp [madeOf_plain_iff, wellFormed]
  | replay reset current replaying ihReset ihCurrent =>
    rw [madeOf_replay_iff, wellFormed, Bool.and_eq_true]
    exact and_congr ihReset (hhalf ihCurrent)
  | merged lower upper lowerAdvanced upperAdvanced ihLower ihUpper =>
    rw [madeOf_merged_iff, wellFormed, Bool.and_eq_true, Bool.and_eq_true, hhalf ihLower,
      hhalf ihUpper, and_assoc]

theorem madeOfHalf_iff_halfWellFormed :
    (∀ c ∈ half, c.MadeOf fun _ => True) ↔ halfWellFormed half = true := by
  rw [halfWellFormed_iff]
  exact forall₂_congr fun c _ => madeOf_iff_wellFormed

mutual

/-- The positions that a cursor is made of, those of its reset points included. -/
def parts : Cursor → List Position
  | .plain p => [p]
  | .replay reset current _ => parts reset ++ partsOf current
  | .merged lower upper _ _ => partsOf lower ++ partsOf upper

/-- The positions that an optional cursor is made of. -/
def partsOf : Option Cursor → List Position
  | none => []
  | some c => parts c

end

theorem forall_mem_partsOf_iff : (∀ p ∈ partsOf half, P p) ↔ ∀ c ∈ half, ∀ p ∈ c.parts, P p := by
  cases half with
  | none => simp [partsOf]
  | some c => simp [partsOf]

/-- A cursor is made of positions that are `P` iff it is well formed and its parts are `P`. -/
theorem madeOf_iff : c.MadeOf P ↔ c.wellFormed = true ∧ ∀ p ∈ c.parts, P p := by
  have hhalf : ∀ {half : Option Cursor},
      (∀ c ∈ half, c.MadeOf P ↔ c.wellFormed = true ∧ ∀ p ∈ c.parts, P p) →
        ((∀ c ∈ half, c.MadeOf P) ↔
          halfWellFormed half = true ∧ ∀ p ∈ partsOf half, P p) := by
    intro half ih
    rw [halfWellFormed_iff, forall_mem_partsOf_iff, ← forall₂_and]
    exact forall₂_congr ih
  induction c with
  | plain p => simp [madeOf_plain_iff, wellFormed, parts]
  | replay reset current replaying ihReset ihCurrent =>
    rw [madeOf_replay_iff, wellFormed, parts, Bool.and_eq_true, List.forall_mem_append,
      and_and_and_comm]
    exact and_congr ihReset (hhalf ihCurrent)
  | merged lower upper lowerAdvanced upperAdvanced ihLower ihUpper =>
    rw [madeOf_merged_iff, hhalf ihLower, hhalf ihUpper, and_and_and_comm, wellFormed, parts,
      Bool.and_eq_true, Bool.and_eq_true, List.forall_mem_append]
    simp only [and_assoc]

/-- Flags do not count. -/
theorem madeOf_bare : c.bare.MadeOf P ↔ c.MadeOf P := by
  have hhalf : ∀ {half : Option Cursor}, (∀ c ∈ half, c.bare.MadeOf P ↔ c.MadeOf P) →
      ((∀ c ∈ bareHalf half, MadeOf P c) ↔ ∀ c ∈ half, MadeOf P c) := by
    intro half ih
    cases half with
    | none => rfl
    | some c => simpa [bareHalf] using ih c rfl
  induction c with
  | plain p => rfl
  | replay reset current replaying ihReset ihCurrent =>
    rw [bare, madeOf_replay_iff, madeOf_replay_iff]
    exact and_congr ihReset (hhalf ihCurrent)
  | merged lower upper lowerAdvanced upperAdvanced ihLower ihUpper =>
    have hpresent : ((bareHalf lower).isSome || (bareHalf upper).isSome) =
        (lower.isSome || upper.isSome) := by
      cases lower <;> cases upper <;> rfl
    rw [bare, madeOf_merged_iff, madeOf_merged_iff, hpresent, hhalf ihLower, hhalf ihUpper]

namespace MadeOf

/-- A present half is made of what its cursor is made of. -/
protected theorem some (h : MadeOf P c) : ∀ d ∈ Option.some c, MadeOf P d := by
  rintro _ ⟨⟩
  exact h

/-- Two halves put together, if any of them is present. -/
theorem merge (hlower : ∀ c ∈ lower, MadeOf P c) (hupper : ∀ c ∈ upper, MadeOf P c) :
    ∀ c ∈ Cursor.merge lower upper, MadeOf P c := by
  intro c hc
  obtain ⟨rfl, hpresent⟩ | ⟨u, rfl, -, -⟩ := eq_of_merge hc
  · exact .merged hpresent hlower hupper
  · exact hlower c rfl

/-- The merged part of a cursor is made of what the cursor is made of. -/
theorem unwrap_merged (h : MadeOf P c) (hd : Cursor.unwrap .merged c = some d) : MadeOf P d := by
  induction h with
  | @plain p hp =>
    rw [Cursor.unwrap] at hd
    split at hd
    · exact Option.some.inj hd ▸ .plain hp
    · cases hd
  | @replay _ current _ _ _ _ ih =>
    cases current with
    | none => cases hd
    | some c => exact ih c rfl hd
  | merged hpresent hlower hupper =>
    obtain rfl := Option.some.inj hd
    exact .merged hpresent hlower hupper

end MadeOf

end Cursor

end StreamProgress
