import StreamProgress.Proofs.Cursor.Flags

/-!
# The bounds of a cursor

What the operations that build cursors do to the floor and to the ceiling is proved once for both,
for any `bound` with the equations of `Cursor.IsBound`.

## Putting together

Two halves that are put together stay a pair, or they are equal and one of them stands for both. The
bounds are those of the pair either way, since a position combined with itself is itself
(`Cursor.IsBound.of_merge`), so no statement about bounds has to ask which of the two has happened.

## Lowering

`Cursor.lowerBound` meets a cursor with a position leaf by leaf and keeps every absent part absent,
so both bounds are met with the position and stay absent where they were. Of the ceiling this is the
distributive law: a join of met positions is the met join. A cursor that could be lowered is all of
the kind of the position, so no statement about the result asks for it.

## Main results

* `Cursor.IsBound.of_merge` — the bounds of two halves put together
* `Cursor.IsBound.of_lowerBound` — the bounds of a lowered cursor
* `Cursor.covers_lowerBound_iff` — a lowered cursor covers what both have covered
-/

namespace StreamProgress

namespace Cursor

variable {c r : Cursor} {half lower upper : Option Cursor} {lowerAdvanced upperAdvanced : Bool}
  {op : Position → Position → Except CursorFault Position}
  {bound : Cursor → Except CursorFault (Option Position)} {p s y : Position}
  {l u l' u' : Option Position}

/-! ### Halves put together -/

/-- Halves put together are the pair of them, if any is present, or one that equals the other. -/
theorem eq_of_merge (h : merge lower upper = some c) :
    (c = pairHalves lower upper ∧ (lower.isSome || upper.isSome) = true) ∨
      ∃ u, lower = some c ∧ upper = some u ∧ (c == u) = true := by
  cases lower with
  | none =>
    cases upper with
    | none => cases h
    | some u => exact .inl ⟨(Option.some.inj h).symm, rfl⟩
  | some l =>
    cases upper with
    | none => exact .inl ⟨(Option.some.inj h).symm, rfl⟩
    | some u =>
      rw [merge_some_some, Option.some.injEq, mergeSome] at h
      split at h
      · rename_i heq
        subst h
        exact .inr ⟨u, rfl, rfl, heq⟩
      · exact .inl ⟨h.symm, rfl⟩

/-- No cursor comes of two absent halves only. -/
theorem merge_eq_none_iff : merge lower upper = none ↔ lower = none ∧ upper = none := by
  cases lower with
  | none => cases upper <;> simp [merge]
  | some l =>
    cases upper with
    | none => simp [merge]
    | some u => simp [merge_some_some]

theorem covers_eq_of_beq {d : Cursor} (h : (c == d) = true) (x : Cursor) :
    c.covers x = d.covers x := by
  rw [← covers_bare c, beq_iff.1 h, covers_bare]

/-- **Two halves put together cover what both of them cover.** -/
theorem halfCovers_merge_iff {x : Cursor} :
    halfCovers (merge lower upper) x = .ok true ↔
      halfCovers lower x = .ok true ∧ halfCovers upper x = .ok true := by
  cases hm : merge lower upper with
  | none =>
    obtain ⟨rfl, rfl⟩ := merge_eq_none_iff.1 hm
    simp
  | some c =>
    obtain ⟨rfl, -⟩ | ⟨u, rfl, rfl, heq⟩ := eq_of_merge hm
    · rw [halfCovers, pairHalves]
      exact covers_merged_eq_ok_true_iff
    · rw [halfCovers, halfCovers, covers_eq_of_beq heq, and_self]

namespace IsBound

/-- **Two halves put together have the bounds of the pair,** also where one stands for both. -/
theorem of_merge (hb : IsBound op bound) (hop : ∀ p, op p p = .ok p)
    (h : merge lower upper = some c) : bound c = bound (pairHalves lower upper) := by
  obtain ⟨rfl, -⟩ | ⟨u, rfl, rfl, heq⟩ := eq_of_merge h
  · rfl
  · rw [pairHalves, hb.merged, boundOf_some, boundOf_some, ← hb.eq_of_beq heq]
    cases bound c with
    | error fault => rfl
    | ok o =>
      cases o with
      | none => rfl
      | some p =>
        rw [Except.ok_bind, Except.ok_bind, combine, hop]
        rfl

theorem of_mergeSome (hb : IsBound op bound) (hop : ∀ p, op p p = .ok p) (l u : Cursor) :
    bound (mergeSome l u) = bound (pairHalves (some l) (some u)) :=
  hb.of_merge hop (merge_some_some l u)

end IsBound

/-! ### Lowering a cursor -/

theorem lowerBound_plain_eq_ok_iff :
    (plain p).lowerBound (plain s) = .ok r ↔ ∃ q, p.meet s = .ok q ∧ r = plain q := by
  simp only [lowerBound, asPlain_plain, Except.ok_bind, Except.bind_eq_ok_iff]
  constructor
  · rintro ⟨q, hq, h⟩
    exact ⟨q, hq, (Except.ok.inj h).symm⟩
  · rintro ⟨q, hq, rfl⟩
    exact ⟨q, hq, rfl⟩

theorem lowerHalf_some_eq_ok_iff {other : Cursor} {o : Option Cursor} :
    lowerHalf (some c) other = .ok o ↔ ∃ d, c.lowerBound other = .ok d ∧ o = some d := by
  simp only [lowerHalf, Except.bind_eq_ok_iff]
  constructor
  · rintro ⟨d, hd, h⟩
    exact ⟨d, hd, (Except.ok.inj h).symm⟩
  · rintro ⟨d, hd, rfl⟩
    exact ⟨d, hd, rfl⟩

theorem lowerBound_replay_plain_eq_ok_iff {reset : Cursor} {current : Option Cursor}
    {replaying : Bool} :
    (replay reset current replaying).lowerBound (plain s) = .ok r ↔
      ∃ o, lowerHalf current (plain s) = .ok o ∧ r = startReplay reset o := by
  cases current with
  | none => exact ⟨fun h => ⟨none, rfl, (Except.ok.inj h).symm⟩, by rintro ⟨_, ⟨⟩, rfl⟩; rfl⟩
  | some mine =>
    simp only [lowerBound, progress_plain, lowerHalf_some_eq_ok_iff, Except.bind_eq_ok_iff]
    constructor
    · rintro ⟨d, hd, h⟩
      exact ⟨some d, ⟨d, hd, rfl⟩, (Except.ok.inj h).symm⟩
    · rintro ⟨_, ⟨d, hd, rfl⟩, rfl⟩
      exact ⟨d, hd, rfl⟩

theorem lowerBound_merged_eq_ok_iff {other : Cursor} :
    (merged lower upper lowerAdvanced upperAdvanced).lowerBound other = .ok r ↔
      ∃ l u, lowerHalf lower other = .ok l ∧ lowerHalf upper other = .ok u ∧
        merge l u = some r := by
  simp only [lowerBound, Except.bind_eq_ok_iff]
  constructor
  · rintro ⟨l, hl, u, hu, h⟩
    cases hm : merge l u with
    | none =>
      rw [hm] at h
      cases h
    | some d =>
      rw [hm] at h
      exact ⟨l, u, hl, hu, hm.trans (congrArg some (Except.ok.inj h))⟩
  · rintro ⟨l, u, hl, hu, hm⟩
    exact ⟨l, hl, u, hu, by rw [hm]; rfl⟩

theorem combine_meet_some_eq_ok_iff {o : Option Position} :
    combine Position.meet (some p) (some s) = .ok o ↔ ∃ q, p.meet s = .ok q ∧ o = some q := by
  simp only [combine, Except.bind_eq_ok_iff]
  constructor
  · rintro ⟨q, hq, h⟩
    exact ⟨q, hq, (Except.ok.inj h).symm⟩
  · rintro ⟨q, hq, rfl⟩
    exact ⟨q, hq, rfl⟩

/-- Two bounds that are lowered combine to their combination, which is lowered. -/
theorem combine_lowered
    (hop : ∀ {p q p' q' : Position}, p.meet s = .ok p' → q.meet s = .ok q' →
      ∃ m m', op p q = .ok m ∧ m.meet s = .ok m' ∧ op p' q' = .ok m')
    (hl : combine Position.meet l (some s) = .ok l')
    (hu : combine Position.meet u (some s) = .ok u') :
    ∃ m m', combine op l u = .ok m ∧ combine Position.meet m (some s) = .ok m' ∧
      combine op l' u' = .ok m' := by
  cases l with
  | none =>
    obtain rfl : none = l' := Except.ok.inj hl
    exact ⟨none, none, rfl, rfl, rfl⟩
  | some p =>
    obtain ⟨p', hp, rfl⟩ := combine_meet_some_eq_ok_iff.1 hl
    cases u with
    | none =>
      obtain rfl : none = u' := Except.ok.inj hu
      exact ⟨none, none, rfl, rfl, rfl⟩
    | some q =>
      obtain ⟨q', hq, rfl⟩ := combine_meet_some_eq_ok_iff.1 hu
      obtain ⟨m, m', hm, hm', h⟩ := hop hp hq
      refine ⟨some m, some m', ?_, combine_meet_some_eq_ok_iff.2 ⟨m', hm', rfl⟩, ?_⟩
      · rw [combine, hm]
        rfl
      · rw [combine, h]
        rfl

/-- What is said of a bound of a lowered cursor: it was met with `s`, and if it was absent it is. -/
def LoweredBy (s : Position) (before after : Except CursorFault (Option Position)) : Prop :=
  ∃ o o', before = .ok o ∧ combine Position.meet o (some s) = .ok o' ∧ after = .ok o'

theorem loweredBy_lowerHalf {o : Option Cursor} (h : lowerHalf half (plain s) = .ok o)
    (ih : ∀ c ∈ half, ∀ r, c.lowerBound (plain s) = .ok r → LoweredBy s (bound c) (bound r)) :
    LoweredBy s (boundOf bound half) (boundOf bound o) := by
  cases half with
  | none =>
    obtain rfl : none = o := Except.ok.inj h
    exact ⟨none, none, rfl, rfl, rfl⟩
  | some c =>
    obtain ⟨d, hd, rfl⟩ := lowerHalf_some_eq_ok_iff.1 h
    exact ih c rfl d hd

/-- **A lowered cursor has lowered bounds.** -/
theorem IsBound.of_lowerBound (hb : IsBound op bound) (hself : ∀ p, op p p = .ok p)
    (hop : ∀ {p q p' q' : Position}, p.meet s = .ok p' → q.meet s = .ok q' →
      ∃ m m', op p q = .ok m ∧ m.meet s = .ok m' ∧ op p' q' = .ok m')
    (h : c.lowerBound (.plain s) = .ok r) : LoweredBy s (bound c) (bound r) := by
  induction c generalizing r with
  | plain p =>
    obtain ⟨q, hq, rfl⟩ := lowerBound_plain_eq_ok_iff.1 h
    exact ⟨some p, some q, hb.plain p, combine_meet_some_eq_ok_iff.2 ⟨q, hq, rfl⟩, hb.plain q⟩
  | replay reset current replaying _ ih =>
    obtain ⟨o, ho, rfl⟩ := lowerBound_replay_plain_eq_ok_iff.1 h
    rw [startReplay, hb.replay, hb.replay]
    exact loweredBy_lowerHalf ho fun c hc r => ih c hc
  | merged lower upper lowerAdvanced upperAdvanced ihLower ihUpper =>
    obtain ⟨l, u, hl, hu, hm⟩ := lowerBound_merged_eq_ok_iff.1 h
    obtain ⟨a, a', ha, haa', ha'⟩ := loweredBy_lowerHalf hl fun c hc r => ihLower c hc
    obtain ⟨b, b', hb₁, hbb', hb₂⟩ := loweredBy_lowerHalf hu fun c hc r => ihUpper c hc
    obtain ⟨m, m', hm₁, hmm', hm₂⟩ := combine_lowered hop haa' hbb'
    rw [hb.of_merge hself hm]
    exact ⟨m, m', hb.merged_eq_ok_iff.2 ⟨a, b, ha, hb₁, hm₁⟩, hmm',
      hb.merged_eq_ok_iff.2 ⟨a', b', ha', hb₂, hm₂⟩⟩

theorem floor_of_lowerBound (h : c.lowerBound (plain s) = .ok r) :
    LoweredBy s c.floor r.floor :=
  isBound_floor.of_lowerBound (fun _ => Position.meet_of_le le_rfl) Position.meet_meet_meet h

theorem ceiling_of_lowerBound (h : c.lowerBound (plain s) = .ok r) :
    LoweredBy s c.ceiling r.ceiling :=
  isBound_ceiling.of_lowerBound (fun _ => Position.join_of_le le_rfl) Position.join_meet_meet h

/-- **A lowered cursor covers what it covered before, as far as the position covers it.** -/
theorem covers_lowerBound_iff (h : c.lowerBound (plain s) = .ok r) :
    r.covers (plain y) = .ok true ↔ c.covers (plain y) = .ok true ∧ s.covers y = .ok true := by
  obtain ⟨o, o', ho, hoo', ho'⟩ := floor_of_lowerBound h
  rw [covers_eq_ok_true_iff, covers_eq_ok_true_iff, ho, ho']
  cases o with
  | none =>
    obtain rfl : none = o' := Except.ok.inj hoo'
    simp
  | some p =>
    obtain ⟨q, hq, rfl⟩ := combine_meet_some_eq_ok_iff.1 hoo'
    simp only [Except.ok.injEq, Option.some.injEq, exists_eq_left']
    exact Position.le_meet_iff hq

end Cursor

end StreamProgress
