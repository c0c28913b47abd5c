import StreamProgress.Cursor.Access
import StreamProgress.Cursor.Written
import StreamProgress.Proofs.Cursor.Advance

/-!
# Flags say nothing about progress

A cursor carries flags about its last step. `Cursor.bare` takes them back to their defaults, and
two cursors are equal, as `==` sees them, when nothing else tells them apart. The statements below
say that no operation can tell them apart either: on bare cursors it gives the same answers, the
same faults, and the same cursors up to flags.

## The flags of a result

An advance reports which halves it moved, so there the flags of the result matter. They are
computed from equality of halves and do not depend on flags, with one way round: a merge that
converges gives back its lower half, whose flags may be old. `Cursor.advance_bare` holds because a
half that is given back has moved, and what moved has flags of its own step. A half that was left
alone does keep old flags, which is why `Cursor.upperBound_bare` says nothing about them.

## Main definitions

* `Cursor.bare` — the cursor with all flags at their defaults
* `Cursor.flags` — the flags that the outcome of an advance reports
* `Cursor.flagsAtDefault` — whether the flags are as they are when a cursor is read

## Main results

* `Cursor.beq_iff` — equality is equality of bare cursors
* `Cursor.flagsAtDefault_iff` — a cursor has its flags at their defaults iff it is bare
* `Cursor.advance_bare`, `lowerBound_bare`, `merge_congr`, `covers_bare` — the operations
-/

namespace StreamProgress

namespace Cursor

mutual

/-- The cursor with its flags, at every depth, as they are when a cursor is read. -/
def bare : Cursor → Cursor
  | .plain p => .plain p
  | .replay reset current _ => .replay (bare reset) (bareHalf current) true
  | .merged lower upper _ _ => .merged (bareHalf lower) (bareHalf upper) false false

/-- The optional cursor with its flags as they are when a cursor is read. -/
def bareHalf : Option Cursor → Option Cursor
  | none => none
  | some c => some (bare c)

end

mutual

/-- Whether all flags of a cursor, at every depth, are as they are when a cursor is read. -/
def flagsAtDefault : Cursor → Bool
  | .plain _ => true
  | .replay reset current replaying =>
    replaying && flagsAtDefault reset && halfFlagsAtDefault current
  | .merged lower upper lowerAdvanced upperAdvanced =>
    !lowerAdvanced && !upperAdvanced && halfFlagsAtDefault lower && halfFlagsAtDefault upper

/-- Whether all flags of an optional cursor are as they are when a cursor is read. -/
def halfFlagsAtDefault : Option Cursor → Bool
  | none => true
  | some c => flagsAtDefault c

end

/-- Which halves the last advance moved, of a merged cursor. -/
def flags : Cursor → Option (Bool × Bool)
  | .merged _ _ lowerAdvanced upperAdvanced => some (lowerAdvanced, upperAdvanced)
  | _ => none

variable {c d : Cursor} {half lower upper lower' upper' : Option Cursor}
  {op : Position → Position → Except CursorFault Position}
  {bound : Cursor → Except CursorFault (Option Position)}

theorem bareHalf_eq_map (half : Option Cursor) : bareHalf half = half.map bare := by
  cases half <;> rfl

theorem bareHalf_bareHalf (h : ∀ c ∈ half, c.bare.bare = c.bare) :
    bareHalf (bareHalf half) = bareHalf half := by
  cases half with
  | none => rfl
  | some c => exact congrArg some (h c rfl)

@[simp] theorem bare_bare (c : Cursor) : c.bare.bare = c.bare := by
  induction c with
  | plain p => rfl
  | replay reset current replaying ihReset ihCurrent =>
    simp only [bare, ihReset, bareHalf_bareHalf ihCurrent]
  | merged lower upper lowerAdvanced upperAdvanced ihLower ihUpper =>
    simp only [bare, bareHalf_bareHalf ihLower, bareHalf_bareHalf ihUpper]

@[simp] theorem map_bare_bareHalf (half : Option Cursor) :
    (bareHalf half).map bare = half.map bare := by
  cases half <;> simp [bareHalf]

/-! ### Equality of cursors -/

theorem halvesAgree_iff (ih : ∀ c ∈ half, ∀ d, c.agrees d = true ↔ c.bare = d.bare)
    (other : Option Cursor) : halvesAgree half other = true ↔ bareHalf half = bareHalf other := by
  cases half with
  | none => cases other <;> simp [halvesAgree, bareHalf]
  | some c =>
    cases other with
    | none => simp [halvesAgree, bareHalf]
    | some d => simp [halvesAgree, bareHalf, ih c rfl d]

theorem agrees_iff : c.agrees d = true ↔ c.bare = d.bare := by
  induction c generalizing d with
  | plain p => cases d <;> simp [agrees, bare]
  | replay reset current replaying ihReset ihCurrent =>
    cases d with
    | replay reset' current' replaying' =>
      simp only [agrees, bare, Bool.and_eq_true, ihReset,
        halvesAgree_iff fun c hc d => ihCurrent c hc, replay.injEq, and_true]
    | plain p => simp [agrees, bare]
    | merged lower upper lowerAdvanced upperAdvanced => simp [agrees, bare]
  | merged lower upper lowerAdvanced upperAdvanced ihLower ihUpper =>
    cases d with
    | merged lower' upper' lowerAdvanced' upperAdvanced' =>
      simp only [agrees, bare, Bool.and_eq_true, halvesAgree_iff fun c hc d => ihLower c hc,
        halvesAgree_iff fun c hc d => ihUpper c hc, merged.injEq, and_true]
    | plain p => simp [agrees, bare]
    | replay reset current replaying => simp [agrees, bare]

/-- **Equal cursors are equal up to flags.** -/
theorem beq_iff : (c == d) = true ↔ c.bare = d.bare := agrees_iff

theorem beq_half_iff : (half == lower) = true ↔ half.map bare = lower.map bare := by
  rw [← halvesAgree_eq, halvesAgree_iff fun c _ d => agrees_iff, bareHalf_eq_map, bareHalf_eq_map]

/-- Equality asks the same of two pairs of cursors that are equal up to flags. -/
theorem beq_half_congr (h : half.map bare = lower.map bare)
    (h' : upper.map bare = lower'.map bare) :
    (half == upper) = (lower == lower') := by
  rw [Bool.eq_iff_iff, beq_half_iff, beq_half_iff, h, h']

theorem beq_congr {c' d' : Cursor} (h : c.bare = c'.bare) (h' : d.bare = d'.bare) :
    (c == d) = (c' == d') := by
  rw [Bool.eq_iff_iff, beq_iff, beq_iff, h, h']

/-- Optional cursors that are equal up to flags are both absent or both present. -/
theorem eq_of_map_bare (h : half.map bare = lower.map bare) :
    (half = none ∧ lower = none) ∨ ∃ c d, half = some c ∧ lower = some d ∧ c.bare = d.bare := by
  cases half with
  | none => exact .inl ⟨rfl, Option.map_eq_none_iff.1 h.symm⟩
  | some c =>
    obtain ⟨d, rfl, hd⟩ := Option.map_eq_some_iff.1 h.symm
    exact .inr ⟨c, d, rfl, rfl, hd.symm⟩

theorem bne_half_self (half : Option Cursor) : (half != half) = false := by
  rw [bne, beq_half_iff.2 rfl]
  rfl

/-- A position has no flags, so what is equal to it is the position. -/
theorem bne_half_plain {p : Position} :
    (half != some (plain p)) = true ↔ half ≠ some (plain p) := by
  rw [bne, Bool.not_eq_true', ← Bool.not_eq_true, beq_half_iff, not_iff_not]
  cases half with
  | none => simp
  | some c => cases c <;> simp [bare]

/-! ### Flags at their defaults -/

theorem halfFlagsAtDefault_iff_of (ih : ∀ c ∈ half, c.flagsAtDefault = true ↔ c.bare = c) :
    halfFlagsAtDefault half = true ↔ bareHalf half = half := by
  cases half with
  | none => simp [halfFlagsAtDefault, bareHalf]
  | some c => simp [halfFlagsAtDefault, bareHalf, ih c rfl]

theorem flagsAtDefault_iff {c : Cursor} : c.flagsAtDefault = true ↔ c.bare = c := by
  induction c with
  | plain p => simp [flagsAtDefault, bare]
  | replay reset current replaying ihReset ihCurrent =>
    cases replaying with
    | false => simp [flagsAtDefault, bare]
    | true => simp [flagsAtDefault, bare, ihReset, halfFlagsAtDefault_iff_of ihCurrent]
  | merged lower upper lowerAdvanced upperAdvanced ihLower ihUpper =>
    cases lowerAdvanced with
    | true => simp [flagsAtDefault, bare]
    | false =>
      cases upperAdvanced with
      | true => simp [flagsAtDefault, bare]
      | false =>
        simp [flagsAtDefault, bare, halfFlagsAtDefault_iff_of ihLower,
          halfFlagsAtDefault_iff_of ihUpper]

theorem halfFlagsAtDefault_bareHalf (half : Option Cursor) :
    halfFlagsAtDefault (bareHalf half) = true := by
  cases half with
  | none => rfl
  | some c => exact flagsAtDefault_iff.2 (bare_bare c)

theorem bareHalf_beq (half : Option Cursor) : (bareHalf half == half) = true :=
  beq_half_iff.2 (map_bare_bareHalf half)

/-! ### Questions to a cursor -/

@[simp] theorem kind_bare (c : Cursor) : c.bare.kind = c.kind := by
  cases c <;> rfl

theorem map_kind_bareHalf (half : Option Cursor) : (bareHalf half).map kind = half.map kind := by
  cases half with
  | none => rfl
  | some c => exact congrArg some (kind_bare c)

theorem kind_eq_of_beq (h : (c == d) = true) : c.kind = d.kind := by
  rw [← kind_bare c, beq_iff.1 h, kind_bare]

theorem halfCovers_bareHalf {other : Cursor}
    (ih : ∀ c ∈ half, ∀ other, c.bare.covers other = c.covers other) :
    halfCovers (bareHalf half) other = halfCovers half other := by
  cases half with
  | none => rfl
  | some c => exact ih c rfl other

@[simp] theorem covers_bare (c other : Cursor) : c.bare.covers other = c.covers other := by
  induction c generalizing other with
  | plain p => rfl
  | replay reset current replaying _ ih =>
    cases current with
    | none => rfl
    | some mine =>
      simp only [bare, bareHalf, covers]
      cases other.progress with
      | none => rfl
      | some theirs => exact ih mine rfl theirs
  | merged lower upper lowerAdvanced upperAdvanced ihLower ihUpper =>
    simp only [bare, covers_merged, halfCovers_bareHalf ihLower, halfCovers_bareHalf ihUpper]

theorem IsBound.bare (hb : IsBound op bound) (c : Cursor) : bound c.bare = bound c := by
  have hhalf : ∀ half : Option Cursor, (∀ c ∈ half, bound c.bare = bound c) →
      boundOf bound (bareHalf half) = boundOf bound half := by
    intro half ih
    cases half with
    | none => rfl
    | some c => exact ih c rfl
  induction c with
  | plain p => rfl
  | replay reset current replaying _ ih => rw [Cursor.bare, hb.replay, hb.replay, hhalf current ih]
  | merged lower upper lowerAdvanced upperAdvanced ihLower ihUpper =>
    rw [Cursor.bare, hb.merged, hb.merged, hhalf lower ihLower, hhalf upper ihUpper]

theorem IsBound.eq_of_beq (hb : IsBound op bound) {d : Cursor} (h : (c == d) = true) :
    bound c = bound d := by
  rw [← hb.bare c, beq_iff.1 h, hb.bare]

@[simp] theorem floor_bare (c : Cursor) : c.bare.floor = c.floor := isBound_floor.bare c

theorem floor_eq_of_beq (h : (c == d) = true) : c.floor = d.floor := isBound_floor.eq_of_beq h

@[simp] theorem ceiling_bare (c : Cursor) : c.bare.ceiling = c.ceiling := isBound_ceiling.bare c

theorem halfToJson_bareHalf (ih : ∀ c ∈ half, c.bare.toJson = c.toJson) :
    halfToJson (bareHalf half) = halfToJson half := by
  cases half with
  | none => rfl
  | some c => exact ih c rfl

/-- The flags are not written. -/
@[simp] theorem toJson_bare (c : Cursor) : c.bare.toJson = c.toJson := by
  induction c with
  | plain p => rfl
  | replay reset current replaying ihReset ihCurrent =>
    simp only [bare, toJson, ihReset, halfToJson_bareHalf ihCurrent]
  | merged lower upper lowerAdvanced upperAdvanced ihLower ihUpper =>
    simp only [bare, toJson, halfToJson_bareHalf ihLower, halfToJson_bareHalf ihUpper]

theorem unwrapHalf_merged_bareHalf
    (ih : ∀ c ∈ half, unwrap .merged c.bare = (unwrap .merged c).map bare) :
    unwrapHalf .merged (bareHalf half) = (unwrapHalf .merged half).map bare := by
  cases half with
  | none => rfl
  | some c => exact ih c rfl

/-- A merged part is found on the way through replays only, and so without looking at flags. -/
theorem unwrap_merged_bare (c : Cursor) :
    unwrap .merged c.bare = (unwrap .merged c).map bare := by
  induction c with
  | plain p => cases p <;> rfl
  | replay reset current replaying _ ih => exact unwrapHalf_merged_bareHalf ih
  | merged lower upper lowerAdvanced upperAdvanced _ _ => rfl

/-! ### Halves put together and lowered -/

theorem bare_pairHalves (lower upper : Option Cursor) :
    (pairHalves lower upper).bare = pairHalves (lower.map bare) (upper.map bare) := by
  rw [pairHalves, bare, bareHalf_eq_map, bareHalf_eq_map]
  rfl

theorem bare_mergeSome_congr {l u l' u' : Cursor} (h : l.bare = l'.bare) (h' : u.bare = u'.bare) :
    (mergeSome l u).bare = (mergeSome l' u').bare := by
  rw [mergeSome, mergeSome, beq_congr h h']
  split
  · exact h
  · rw [bare_pairHalves, bare_pairHalves, Option.map_some, Option.map_some, h, h']
    rfl

/-- Two halves put together are the same up to flags if the halves are. -/
theorem merge_congr (h : lower.map bare = lower'.map bare) (h' : upper.map bare = upper'.map bare) :
    (merge lower upper).map bare = (merge lower' upper').map bare := by
  cases lower with
  | none =>
    obtain rfl : lower' = none := Option.map_eq_none_iff.1 h.symm
    cases upper with
    | none =>
      obtain rfl : upper' = none := Option.map_eq_none_iff.1 h'.symm
      rfl
    | some u =>
      obtain ⟨u', rfl, hu⟩ := Option.map_eq_some_iff.1 h'.symm
      simp only [merge, Option.map_some, bare_pairHalves, hu]
  | some l =>
    obtain ⟨l', rfl, hl⟩ := Option.map_eq_some_iff.1 h.symm
    cases upper with
    | none =>
      obtain rfl : upper' = none := Option.map_eq_none_iff.1 h'.symm
      simp only [merge, Option.map_some, bare_pairHalves, hl]
    | some u =>
      obtain ⟨u', rfl, hu⟩ := Option.map_eq_some_iff.1 h'.symm
      rw [merge_some_some, merge_some_some]
      exact congrArg some (bare_mergeSome_congr hl.symm hu.symm)

theorem lowerHalf_bareHalf {other : Cursor}
    (ih : ∀ c ∈ half, ∀ other, (c.bare.lowerBound other).map bare = (c.lowerBound other).map bare) :
    (lowerHalf (bareHalf half) other).map (Option.map bare) =
      (lowerHalf half other).map (Option.map bare) := by
  cases half with
  | none => rfl
  | some c => exact Except.map_bind_congr (ih c rfl other) fun a b h =>
      congrArg (fun d => Except.ok (some d)) h

/-- A cursor is lowered to the same cursor up to flags, whatever its flags are. -/
theorem lowerBound_bare (c other : Cursor) :
    (c.bare.lowerBound other).map bare = (c.lowerBound other).map bare := by
  induction c generalizing other with
  | plain p => rfl
  | replay reset current replaying _ ih =>
    have hstart : ∀ a b : Option Cursor, a.map bare = b.map bare →
        (startReplay reset.bare a).bare = (startReplay reset b).bare := by
      intro a b h
      simp only [startReplay, bare, bareHalf_eq_map, bare_bare, h]
    cases current with
    | none => exact congrArg Except.ok (hstart none none rfl)
    | some mine =>
      simp only [bare, bareHalf, lowerBound]
      cases other.progress with
      | none => exact congrArg Except.ok (hstart none none rfl)
      | some theirs =>
        exact Except.map_bind_congr (ih mine rfl theirs) fun a b h =>
          congrArg Except.ok (hstart (some a) (some b) (congrArg some h))
  | merged lower upper lowerAdvanced upperAdvanced ihLower ihUpper =>
    simp only [bare, lowerBound]
    refine Except.map_bind_congr (lowerHalf_bareHalf ihLower) ?_
    intro l l' hl
    refine Except.map_bind_congr (lowerHalf_bareHalf ihUpper) ?_
    intro u u' hu
    have hm := merge_congr hl hu
    cases hlu : merge l u with
    | none =>
      rw [hlu] at hm
      rw [Option.map_eq_none_iff.1 hm.symm]
    | some m =>
      rw [hlu] at hm
      obtain ⟨m', hm', hb⟩ := Option.map_eq_some_iff.1 hm.symm
      rw [hm']
      exact congrArg Except.ok hb.symm

/-! ### Advancing -/

/-- What is seen of the result of an advance. -/
def shown (c : Cursor) : Cursor × Option (Bool × Bool) := (c.bare, c.flags)

/-- What is seen of a half after its move. A half that has not moved may have old flags. -/
def shownMove (half : Option Cursor) (moved : Cursor) : Cursor × Option (Bool × Bool) :=
  (moved.bare, if half != some moved then moved.flags else none)

theorem bne_half_congr (h : half.map bare = lower.map bare) (h' : c.bare = d.bare) :
    (half != some c) = (lower != some d) := by
  have hmap : (some c).map bare = (some d).map bare := congrArg some h'
  rw [bne, bne, beq_half_congr h hmap]

theorem shown_eq_iff : c.shown = d.shown ↔ c.bare = d.bare ∧ c.flags = d.flags := Prod.mk_inj

theorem shownMove_congr (h : c.shown = d.shown) : shownMove half c = shownMove half d := by
  obtain ⟨hbare, hflags⟩ := shown_eq_iff.1 h
  rw [shownMove, shownMove, bne_half_congr rfl hbare, hbare, hflags]

theorem shownMove_bare (c : Cursor) : shownMove (some c) c.bare = shownMove (some c) c := by
  have hsame : ∀ d : Cursor, d.bare = c.bare → (some c == some d) = true :=
    fun d hd => beq_half_iff.2 (congrArg some hd.symm)
  rw [shownMove, shownMove, bne, bne, hsame c rfl, hsame c.bare (bare_bare c), bare_bare]
  rfl

theorem advanceHalf_bareHalf {x : Cursor}
    (ih : ∀ c ∈ half, (c.bare.advance x).map shown = (c.advance x).map shown) :
    (advanceHalf (bareHalf half) x).map (shownMove half) =
      (advanceHalf half x).map (shownMove half) := by
  cases half with
  | none => rfl
  | some c =>
    by_cases hw : c.kind.wraps = true
    · rw [bareHalf, advanceHalf_of_wraps hw, advanceHalf_of_wraps (by rwa [kind_bare]), keepOr,
        keepOr, covers_bare]
      cases c.covers x with
      | error e => rfl
      | ok covered =>
        cases covered with
        | true => exact congrArg Except.ok (shownMove_bare c)
        | false => exact Except.map_congr_of_map (ih c rfl) fun a b h => shownMove_congr h
    · cases c with
      | plain p => rfl
      | replay reset current replaying => exact absurd rfl hw
      | merged lower upper lowerAdvanced upperAdvanced => exact absurd rfl hw

theorem reaches_bare (c x : Cursor) : reaches c.bare x = reaches c x := by
  rw [reaches, reaches, ceiling_bare]

theorem replayStep_bare {reset x : Cursor}
    (hadvance : (reset.bare.advance x).map shown = (reset.advance x).map shown)
    (hraise : (reset.bare.upperBound x).map bare = (reset.upperBound x).map bare) :
    (replayStep reset.bare (upperBound reset.bare) (advance reset.bare) x).map shown =
      (replayStep reset (upperBound reset) (advance reset) x).map shown := by
  rw [replayStep, replayStep, reaches_bare, covers_bare]
  cases reaches reset x with
  | error e => rfl
  | ok reached =>
    cases reset.covers x with
    | error e => rfl
    | ok covered =>
      cases covered with
      | true => exact congrArg Except.ok (shown_eq_iff.2 ⟨by simp only [bare, bare_bare], rfl⟩)
      | false =>
        cases reached with
        | true => exact hadvance
        | false =>
          simp only [Except.ok_bind, Bool.false_eq_true, if_false]
          refine Except.map_bind_congr hraise ?_
          intro a b hab
          refine Except.map_bind_congr hadvance ?_
          intro a' b' hab'
          refine congrArg Except.ok (shown_eq_iff.2 ⟨?_, rfl⟩)
          simp only [bare, bareHalf, hab, (shown_eq_iff.1 hab').1]

theorem advance_merged_bare {x : Cursor} (lowerAdvanced upperAdvanced : Bool)
    (ihLower : ∀ c ∈ lower, (c.bare.advance x).map shown = (c.advance x).map shown)
    (ihUpper : ∀ c ∈ upper, (c.bare.advance x).map shown = (c.advance x).map shown) :
    ((merged lower upper lowerAdvanced upperAdvanced).bare.advance x).map shown =
      ((merged lower upper lowerAdvanced upperAdvanced).advance x).map shown := by
  simp only [bare, advance]
  refine Except.map_bind_congr (advanceHalf_bareHalf ihLower) ?_
  intro l l' hl
  refine Except.map_bind_congr (advanceHalf_bareHalf ihUpper) ?_
  intro u u' hu
  obtain ⟨hlbare, hlflags⟩ := Prod.mk_inj.1 hl
  obtain ⟨hubare, -⟩ := Prod.mk_inj.1 hu
  rw [bne_half_congr (map_bare_bareHalf lower) hlbare,
    bne_half_congr (map_bare_bareHalf upper) hubare, beq_congr hlbare hubare]
  split
  · -- what is given back has moved, so its flags are seen
    rename_i hconverged
    simp only [Bool.and_eq_true] at hconverged
    have hlower := hconverged.1.1
    rw [bne_half_congr rfl hlbare, if_pos hlower, if_pos hlower] at hlflags
    exact congrArg Except.ok (shown_eq_iff.2 ⟨hlbare, hlflags⟩)
  · refine congrArg Except.ok (shown_eq_iff.2 ⟨?_, rfl⟩)
    simp only [bare, bareHalf, hlbare, hubare]

theorem upperBound_merged_bare {x : Cursor} (lowerAdvanced upperAdvanced : Bool)
    (ihLower : ∀ c ∈ lower, (c.bare.advance x).map shown = (c.advance x).map shown)
    (ihUpper : ∀ c ∈ upper, (c.bare.advance x).map shown = (c.advance x).map shown) :
    ((merged lower upper lowerAdvanced upperAdvanced).bare.upperBound x).map bare =
      ((merged lower upper lowerAdvanced upperAdvanced).upperBound x).map bare := by
  simp only [bare, upperBound]
  refine Except.map_bind_congr (advanceHalf_bareHalf ihLower) ?_
  intro l l' hl
  refine Except.map_bind_congr (advanceHalf_bareHalf ihUpper) ?_
  intro u u' hu
  exact congrArg Except.ok (bare_mergeSome_congr (Prod.mk_inj.1 hl).1 (Prod.mk_inj.1 hu).1)

/-- The two rules go up the tree together: a replay that is raised both raises and advances its
reset point. -/
theorem advance_upperBound_bare (c : Cursor) :
    (∀ x, (c.bare.advance x).map shown = (c.advance x).map shown) ∧
      ∀ x, (c.bare.upperBound x).map bare = (c.upperBound x).map bare := by
  induction c with
  | plain p => exact ⟨fun x => rfl, fun x => rfl⟩
  | replay reset current replaying ih _ =>
    refine ⟨fun x => replayStep_bare (ih.1 x) (ih.2 x), ?_⟩
    intro x
    simp only [bare, upperBound]
    cases x.progress with
    | none =>
      exact congrArg Except.ok (bare_bare (replay reset current replaying))
    | some theirs =>
      exact Except.map_congr_of_map (replayStep_bare (ih.1 theirs) (ih.2 theirs))
        fun a b h => (shown_eq_iff.1 h).1
  | merged lower upper lowerAdvanced upperAdvanced ihLower ihUpper =>
    exact ⟨fun x => advance_merged_bare lowerAdvanced upperAdvanced
        (fun c hc => (ihLower c hc).1 x) fun c hc => (ihUpper c hc).1 x,
      fun x => upperBound_merged_bare lowerAdvanced upperAdvanced
        (fun c hc => (ihLower c hc).1 x) fun c hc => (ihUpper c hc).1 x⟩

/-- **Flags do not reach the result of an advance.** From a cursor and from its bare form the same
position leads to the same fault, or to results that are equal up to flags and, if they are merged,
report the same halves as moved. -/
theorem advance_bare (c x : Cursor) : (c.bare.advance x).map shown = (c.advance x).map shown :=
  (advance_upperBound_bare c).1 x

theorem upperBound_bare (c x : Cursor) :
    (c.bare.upperBound x).map bare = (c.upperBound x).map bare :=
  (advance_upperBound_bare c).2 x

end Cursor

end StreamProgress
