import StreamProgress.Cursor.Access
import StreamProgress.Proofs.Cursor.Faults

/-!
# What an advance has moved

A merged cursor that was advanced says which of its halves have moved. A half moves exactly when
it does not cover the position, so if no half has moved, the position was covered before, and
nothing but the flags has changed. This is no matter of the merged case alone: a merge that
converges gives back one of its halves, and a replay that ends goes on as its reset point does, and
either of them may be merged again and have flags of its own. They are flags of the same step, since
what is given back has moved in it (`Cursor.covers_of_flags`).

## Looking for the position

`Cursor.unwrap` follows the half that has moved. After an advance there is a position to be found
on this way, and it is the one that was read, if it can be compared with all positions that the
cursor is made of: a plain half that moves is joined with the position, and the join is the position
only if the half was behind it. With indices there is no other case. Where nothing has moved there
is no way to follow, and nothing is found.

## Main results

* `Cursor.covers_iff_advance_unmoved` — merged cursors cover what they need not move for
* `Cursor.unwrap_of_advance` — what is found after an advance that moves something
* `Cursor.unwrap_advanceFrom` — the index that is found after an advance
-/

namespace StreamProgress

namespace Cursor

variable {c r : Cursor} {half lower upper : Option Cursor} {lowerAdvanced upperAdvanced : Bool}
  {x : Position} {k : Kind}

/-! ### Halves that stay -/

/-- A half that covers the position stays what it is. -/
theorem halfMove_of_covers (h : c.covers (plain x) = .ok true) : HalfMove (plain x) (some c) c := by
  by_cases hwraps : c.kind.wraps = true
  · exact .kept hwraps h
  · cases c with
    | plain p => exact .joined (upperBound_plain_eq_ok_iff.2 ⟨p, Position.join_of_le h, rfl⟩)
    | replay reset current replaying => exact absurd rfl hwraps
    | merged lower upper lowerAdvanced upperAdvanced => exact absurd rfl hwraps

/-- A half that has not moved covers the position, as every half does after its move. -/
theorem HalfMove.halfCovers_of_unmoved (h : HalfMove (plain x) half r)
    (hunmoved : (half != some r) = false) : halfCovers half (plain x) = .ok true := by
  have hcovers : r.covers (plain x) = .ok true := h.covers fun _ _ _ => covers_of_advance
  rw [bne, Bool.not_eq_false', beq_half_iff] at hunmoved
  obtain ⟨c, rfl, hbare⟩ := Option.map_eq_some_iff.1 hunmoved
  rw [halfCovers, covers_eq_of_beq (beq_iff.2 hbare), hcovers]

/-! ### Advances that move nothing -/

/-- **Where the flags say that nothing has moved, the position was covered,** whatever the cursor
was that has come to them. -/
theorem covers_of_flags (h : c.advance (plain x) = .ok r) (hflags : r.flags = some (false, false)) :
    c.covers (plain x) = .ok true := by
  induction c generalizing r with
  | plain p =>
    obtain rfl : plain x = r := Except.ok.inj h
    cases hflags
  | replay reset current replaying ih _ =>
    cases advance_replay_eq_ok_iff.1 h with
    | reread => cases hflags
    | ended _ hcovers hadvance =>
      rw [ih hadvance hflags] at hcovers
      cases hcovers
    | raised => cases hflags
  | merged lower upper lowerAdvanced upperAdvanced ihLower _ =>
    cases advance_merged_eq_ok_iff.1 h with
    | converged hl _ hlower =>
      -- the half that is given back has moved, and its flags are those of its own advance
      cases hl with
      | started => cases hflags
      | joined hjoin =>
        obtain ⟨s, -, rfl⟩ := upperBound_plain_eq_ok_iff.1 hjoin
        cases hflags
      | kept =>
        rw [bne_half_self] at hlower
        cases hlower
      | moved _ hcovers hadvance =>
        rw [ihLower _ rfl hadvance hflags] at hcovers
        cases hcovers
    | pending hl hu =>
      obtain ⟨hlower, hupper⟩ := Prod.mk.inj (Option.some.inj hflags)
      exact covers_merged_eq_ok_true_iff.2
        ⟨hl.halfCovers_of_unmoved hlower, hu.halfCovers_of_unmoved hupper⟩

/-- A merged cursor that covers the position keeps its halves, with their flags. -/
theorem advance_merged_of_covers
    (h : (merged lower upper lowerAdvanced upperAdvanced).covers (plain x) = .ok true) :
    (merged lower upper lowerAdvanced upperAdvanced).advance (plain x) =
      .ok (pairHalves lower upper) := by
  obtain ⟨hl, hu⟩ := covers_merged_eq_ok_true_iff.1 h
  obtain ⟨l, rfl, hl⟩ := halfCovers_eq_ok_true_iff.1 hl
  obtain ⟨u, rfl, hu⟩ := halfCovers_eq_ok_true_iff.1 hu
  have hmove : MergedMove (plain x) (some l) (some u) _ :=
    .pending (halfMove_of_covers hl) (halfMove_of_covers hu) (by rw [bne_half_self]; rfl)
  rw [bne_half_self, bne_half_self] at hmove
  exact advance_merged_eq_ok_iff.2 hmove

/-- **The advances that move nothing are those to a covered position.** A merged cursor covers a
position iff it advances to a merged cursor of which no half has moved, and then to one that is
equal to it. -/
theorem covers_iff_advance_unmoved (lower upper : Option Cursor)
    (lowerAdvanced upperAdvanced : Bool) (x : Position) :
    let m := merged lower upper lowerAdvanced upperAdvanced
    (m.covers (plain x) = .ok true ↔
        ∃ r, m.advance (plain x) = .ok r ∧ r.flags = some (false, false)) ∧
      (m.covers (plain x) = .ok true ↔
        ∃ r, m.advance (plain x) = .ok r ∧ r.flags = some (false, false) ∧ (r == m) = true) := by
  intro m
  have hequal : (pairHalves lower upper == m) = true := beq_iff.2 rfl
  refine ⟨⟨fun h => ?_, ?_⟩, ⟨fun h => ?_, ?_⟩⟩
  · exact ⟨_, advance_merged_of_covers h, rfl⟩
  · rintro ⟨r, h, hflags⟩
    exact covers_of_flags h hflags
  · exact ⟨_, advance_merged_of_covers h, rfl, hequal⟩
  · rintro ⟨r, h, hflags, -⟩
    exact covers_of_flags h hflags

/-! ### Looking for the position -/

theorem unwrap_plain_kind (x : Position) : unwrap x.kind (plain x) = some (plain x) := by
  rw [unwrap, if_pos rfl]

theorem unwrap_replay (hk : k ≠ .replay) (reset : Cursor) (current : Option Cursor)
    (replaying : Bool) : unwrap k (replay reset current replaying) = unwrapHalf k current := by
  rw [unwrap, if_neg hk]

theorem unwrap_merged (hk : k ≠ .merged) (lower upper : Option Cursor)
    (lowerAdvanced upperAdvanced : Bool) :
    unwrap k (merged lower upper lowerAdvanced upperAdvanced) =
      if lowerAdvanced then unwrapHalf k lower
      else if upperAdvanced then unwrapHalf k upper
      else none := by
  rw [unwrap, if_neg hk]

theorem covers_ne_true (h : c.covers (plain x) = .ok false) : c.covers (plain x) ≠ .ok true := by
  rw [h]
  simp

/-- In a half that has moved the position is found, if it is in every wrapping half that
advances. -/
theorem HalfMove.unwrap_of_moved (h : HalfMove (plain x) half r)
    (hmoved : (half != some r) = true) (hhalf : ∀ c ∈ half, c.MadeOf fun p => p ≤ x ∨ x ≤ p)
    (ih : ∀ c ∈ half, c.advance (plain x) = .ok r →
      (c.kind = .merged → c.covers (plain x) ≠ .ok true) → unwrap x.kind r = some (plain x)) :
    unwrap x.kind r = some (plain x) := by
  cases h with
  | started => exact unwrap_plain_kind x
  | @joined p _ hjoin =>
    obtain ⟨s, hs, rfl⟩ := upperBound_plain_eq_ok_iff.1 hjoin
    obtain hpx | hxp := madeOf_plain_iff.1 (hhalf _ rfl)
    · obtain rfl : x = s := Except.ok.inj ((Position.join_of_ge hpx).symm.trans hs)
      exact unwrap_plain_kind x
    · -- the half was at or beyond the position, so it has not moved
      obtain rfl : p = s := Except.ok.inj ((Position.join_of_le hxp).symm.trans hs)
      rw [bne_half_self] at hmoved
      cases hmoved
  | kept =>
    rw [bne_half_self] at hmoved
    cases hmoved
  | moved _ hcovers hadvance => exact ih _ rfl hadvance fun _ => covers_ne_true hcovers

/-- **After an advance that moves something the position is found,** if all that the cursor is made
of can be compared with it. -/
theorem unwrap_of_advance (hc : c.MadeOf fun p => p ≤ x ∨ x ≤ p)
    (h : c.advance (plain x) = .ok r)
    (hnew : c.kind = .merged → c.covers (plain x) ≠ .ok true) :
    unwrap x.kind r = some (plain x) := by
  have hreplay : x.kind ≠ .replay := by cases x <;> simp [Position.kind]
  have hmerged : x.kind ≠ .merged := by cases x <;> simp [Position.kind]
  induction hc generalizing r with
  | @plain p _ =>
    obtain rfl : plain x = r := Except.ok.inj h
    exact unwrap_plain_kind x
  | replay _ _ ih _ =>
    cases advance_replay_eq_ok_iff.1 h with
    | reread =>
      rw [unwrap_replay hreplay]
      exact unwrap_plain_kind x
    | ended _ hcovers hadvance => exact ih hadvance fun _ => covers_ne_true hcovers
    | raised _ hcovers _ hadvance =>
      rw [unwrap_replay hreplay]
      exact ih hadvance fun _ => covers_ne_true hcovers
  | @merged lower upper _ _ _ hlower hupper ihLower ihUpper =>
    cases advance_merged_eq_ok_iff.1 h with
    | converged hl _ hmoved => exact hl.unwrap_of_moved hmoved hlower fun c hc => ihLower c hc
    | @pending l u hl hu =>
      rw [unwrap_merged hmerged]
      cases hlmoved : lower != some l with
      | true => exact hl.unwrap_of_moved hlmoved hlower fun c hc => ihLower c hc
      | false =>
        cases humoved : upper != some u with
        | true => exact hu.unwrap_of_moved humoved hupper fun c hc => ihUpper c hc
        | false =>
          -- both halves cover the position then, and so does the merged cursor
          exact absurd (covers_merged_eq_ok_true_iff.2
            ⟨hl.halfCovers_of_unmoved hlmoved, hu.halfCovers_of_unmoved humoved⟩) (hnew rfl)

/-- **The index that was read is found after an advance.** Take an optional cursor without empty
merges whose positions are all indices, and advance it to an index. That succeeds, and the index is
found in the result, unless the cursor is merged and has covered the index before; then nothing is
found. -/
theorem unwrap_advanceFrom {c : Option Cursor} (hformed : halfWellFormed c = true)
    (hparts : ∀ p ∈ partsOf c, p.kind = .sequence) (i : UInt64) :
    ∃ r, advanceFrom c (sequence i) = .ok r ∧
      unwrapHalf .sequence (some r) =
        if c.map kind = some .merged ∧ halfCovers c (sequence i) = .ok true then none
        else some (sequence i) := by
  have hmade {P : Position → Prop} (hP : ∀ p, p.kind = .sequence → P p) : ∀ d ∈ c, d.MadeOf P :=
    fun d hd => madeOf_iff.2 ⟨halfWellFormed_iff.1 hformed d hd,
      fun p hp => hP p (forall_mem_partsOf_iff.1 hparts d hd p hp)⟩
  obtain ⟨r, hr, -⟩ := ((setting_ofKind .sequence).ends_advanceFrom (hmade fun _ => id)
    ⟨_, rfl, rfl⟩ : (advanceFrom c (sequence i)).Ends _ _).exists_eq_ok
  refine ⟨r, hr, ?_⟩
  cases c with
  | none =>
    obtain rfl : sequence i = r := Except.ok.inj hr
    rfl
  | some d =>
    split
    · rename_i hcovered
      obtain ⟨hkind, hcovers⟩ := hcovered
      cases d with
      | plain p => cases p <;> cases hkind
      | replay reset current replaying => cases hkind
      | merged lower upper lowerAdvanced upperAdvanced =>
        have hstays : (merged lower upper lowerAdvanced upperAdvanced).advance (sequence i) =
            .ok (pairHalves lower upper) := advance_merged_of_covers hcovers
        obtain rfl := Except.ok.inj (hstays.symm.trans hr)
        rfl
    · rename_i hnew
      refine unwrap_of_advance (x := .sequence i) ?_ hr ?_
      · exact hmade (fun p hp => Position.le_or_ge_of_kind hp rfl) d rfl
      · exact fun hkind hcovers => hnew ⟨congrArg some hkind, hcovers⟩

/-- A merged cursor with a replay half over a merged reset point. The replay half covers index 2 and
the plain one does too, so there nothing is found. Index 6 raises the reset point, and the replay
goes on in a merged cursor whose lower half has moved to it. -/
theorem unwrap_advanceFrom_nested :
    ∃ c, c = merged (some (replay (merged (some (sequence 5)) (some (sequence 9)) false false)
        (some (sequence 2)) true)) (some (sequence 4)) false true ∧
      c.wellFormed = true ∧ (∀ p ∈ c.parts, p.kind = .sequence) ∧
        c.covers (sequence 2) = .ok true ∧ c.covers (sequence 6) = .ok false ∧
        (∃ r, c.advance (sequence 2) = .ok r ∧ unwrap .sequence r = none) ∧
        ∃ r, c.advance (sequence 6) = .ok r ∧ unwrap .sequence r = some (sequence 6) := by
  obtain ⟨c, hc⟩ : ∃ c, c = merged (some (replay (merged (some (sequence 5)) (some (sequence 9))
    false false) (some (sequence 2)) true)) (some (sequence 4)) false true := ⟨_, rfl⟩
  have hformed : halfWellFormed (some c) = true := by
    subst hc
    rfl
  have hparts : ∀ p ∈ partsOf (some c), p.kind = .sequence := by
    subst hc
    decide
  have hbehind : c.covers (sequence 2) = .ok true := by
    subst hc
    rfl
  have hahead : c.covers (sequence 6) = .ok false := by
    subst hc
    rfl
  have hkind : c.kind = .merged := by
    subst hc
    rfl
  obtain ⟨r, hr, hunwrap⟩ := unwrap_advanceFrom hformed hparts 2
  obtain ⟨s, hs, hunwrap'⟩ := unwrap_advanceFrom hformed hparts 6
  rw [if_pos ⟨congrArg some hkind, hbehind⟩] at hunwrap
  rw [if_neg (by simp [halfCovers, hahead])] at hunwrap'
  exact ⟨c, hc, hformed, hparts, hbehind, hahead, ⟨r, hr, hunwrap⟩, s, hs, hunwrap'⟩

end Cursor

end StreamProgress
