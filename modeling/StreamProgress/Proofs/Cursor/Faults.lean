import StreamProgress.Proofs.Cursor.MadeOf

/-!
# The faults of the operations

An operation on cursors goes down the tree and fails where a plain position refuses another one, or
where a merge is empty. Which faults can occur depends on what the cursor is made of and on what it
is combined with, and it does so in the same way for every operation.

## One induction for every setting

`Cursor.Setting E P Q` names three things that go together: the positions that cursors are made of
(`P`), the cursors that they are combined with (`Q`), and the faults that may occur then (`E`). It
asks for facts about single positions only. From these each operation gets one lemma, by one
induction: it ends with a fault that is `E`, or with a cursor that is made of such positions again.
Two settings are of interest.

* `Cursor.setting_ofKind` — all positions are of one kind, and cursors are combined with plain ones.
  Then no fault is left. A wrapping cursor would be refused by a plain position, so what matters is
  that no operation hands a part of a cursor to another one but as a position that it is made of.
* `Cursor.setting_wellFormed` — nothing is asked of positions or of what cursors are combined with,
  but for empty merges. Then positions may refuse each other, and a merge is still never empty.

## Main definitions

* `Cursor.Setting` — positions and operands that go together, and the faults that may occur
* `Cursor.Operation` — the operations that come to a cursor

## Main results

* `Cursor.Setting.ends_covers`, `ends_bound`, `ends_lowerBound`, `ends_advance`, `ends_upperBound`,
  `ends_reset` — the operations, one by one
* `Cursor.Operation.ends_run` — well-formed operands do not come to an empty merge
-/

namespace StreamProgress

namespace Cursor

variable {c x : Cursor} {half lower upper : Option Cursor} {P : Position → Prop}

/-! ### The first reset point -/

/-- The point that a segment had reached at its first reset. -/
def firstPoint : Cursor → Cursor
  | .replay reset _ _ => reset
  | other => other

theorem MadeOf.firstPoint (h : MadeOf P c) : MadeOf P c.firstPoint := by
  cases h with
  | plain hp => exact .plain hp
  | replay hreset _ => exact hreset
  | merged hpresent hlower hupper => exact .merged hpresent hlower hupper

theorem reset_some_none (point : Cursor) :
    reset (some point) none = .ok (some (startReplay point.firstPoint none)) := by
  cases point <;> rfl

theorem reset_some_some (point start : Cursor) :
    reset (some point) (some start) = (do
      match ← point.firstPoint.floor with
      | none => return some (startReplay point.firstPoint (some start))
      | some bound =>
        if ← start.covers (.plain bound) then return some start
        else return some (startReplay point.firstPoint (some start))) := by
  cases point <;> rfl

/-! ### Settings -/

/-- Positions that are `P`, combined with each other and with cursors that are `Q`, so that no fault
occurs but those that are `E`. -/
structure Setting (E : CursorFault → Prop) (P : Position → Prop) (Q : Cursor → Prop) : Prop where
  meet {p q : Position} (hp : P p) (hq : P q) : (p.meet q).Ends E P
  join {p q : Position} (hp : P p) (hq : P q) : (p.join q).Ends E P
  covers {p q : Position} (hp : P p) (hq : P q) : (p.covers q).Ends E fun _ => True
  /-- A cursor is combined with the positions that cursors are made of. -/
  plain {p : Position} (hp : P p) : Q (.plain p)
  /-- Where a position is needed, a cursor has one or is refused with a fault that may occur. -/
  asPlain {x : Cursor} (hx : Q x) (expected : Kind) : (x.asPlain expected).Ends E P
  /-- A replay hands on the progress of another one. -/
  progress {x : Cursor} (hx : Q x) : ∀ d ∈ x.progress, Q d
  /-- A cursor may take over what it is combined with. -/
  madeOf {x : Cursor} (hx : Q x) : x.MadeOf P

/-- Positions of one kind do not refuse each other. -/
theorem setting_ofKind (k : Kind) :
    Setting (fun _ => False) (fun p => p.kind = k) fun c => ∃ p : Position, c = .plain p ∧ p.kind = k where
  meet {p q} hp hq := by
    obtain ⟨r, hr⟩ := Position.exists_meet (hp.trans hq.symm)
    rw [hr]
    exact (Position.kind_eq_of_le (Position.meet_le_left hr)).trans hp
  join {p q} hp hq := by
    obtain ⟨r, hr⟩ := Position.exists_join (hp.trans hq.symm)
    rw [hr]
    exact (Position.kind_eq_of_le (Position.le_join_left hr)).symm.trans hp
  covers {p q} hp hq := by
    rw [Position.covers_of_kind_eq (hp.trans hq.symm)]
    trivial
  plain {p} hp := ⟨p, rfl, hp⟩
  asPlain := by
    rintro _ ⟨p, rfl, hp⟩ expected
    exact hp
  progress := by
    rintro _ ⟨p, rfl, hp⟩ _ ⟨⟩
    exact ⟨p, rfl, hp⟩
  madeOf := by
    rintro _ ⟨p, rfl, hp⟩
    exact .plain hp

/-- Positions refuse each other with a fault that is no empty merge. -/
theorem setting_wellFormed :
    Setting (fun fault => fault ≠ .emptyMerge) (fun _ => True) fun c => c.wellFormed = true where
  meet {p q} _ _ := by
    by_cases hkind : p.kind = q.kind
    · obtain ⟨r, hr⟩ := Position.exists_meet hkind
      rw [hr]
      trivial
    · rw [Position.meet_of_kind_ne hkind]
      nofun
  join {p q} _ _ := by
    by_cases hkind : p.kind = q.kind
    · obtain ⟨r, hr⟩ := Position.exists_join hkind
      rw [hr]
      trivial
    · rw [Position.join_of_kind_ne hkind]
      nofun
  covers {p q} _ _ := by
    by_cases hkind : p.kind = q.kind
    · rw [Position.covers_of_kind_eq hkind]
      trivial
    · rw [Position.covers_of_kind_ne hkind]
      nofun
  plain _ := rfl
  asPlain {x} _ expected := by
    cases x with
    | plain p => trivial
    | replay reset current replaying => nofun
    | merged lower upper lowerAdvanced upperAdvanced => nofun
  progress {x} hx d hd := by
    cases x with
    | replay reset current replaying =>
      rw [wellFormed, Bool.and_eq_true, halfWellFormed_iff] at hx
      exact hx.2 d hd
    | plain p => exact Option.some.inj hd ▸ hx
    | merged lower upper lowerAdvanced upperAdvanced => exact Option.some.inj hd ▸ hx
  madeOf := madeOf_iff_wellFormed.2

namespace Setting

variable {E : CursorFault → Prop} {Q : Cursor → Prop}

/-! ### Coverage and bounds -/

theorem ends_halfCovers (ih : ∀ c ∈ half, (c.covers x).Ends E fun _ => True) :
    (halfCovers half x).Ends E fun _ => True :=
  forall_half half trivial ih

theorem ends_covers (hs : Setting E P Q) (hc : c.MadeOf P) (hx : Q x) :
    (c.covers x).Ends E fun _ => True := by
  induction hc generalizing x with
  | plain hp =>
    rw [Cursor.covers]
    exact (hs.asPlain hx _).bind fun q hq => hs.covers hp hq
  | @replay _ current _ _ _ _ ih =>
    cases current with
    | none => trivial
    | some mine =>
      rw [Cursor.covers]
      cases htheirs : x.progress with
      | none => trivial
      | some theirs => exact ih mine rfl (hs.progress hx theirs htheirs)
  | merged _ _ _ ihLower ihUpper =>
    rw [covers_merged]
    refine (ends_halfCovers fun c hc => ihLower c hc hx).bind ?_
    intro covered _
    cases covered with
    | false => trivial
    | true => exact ends_halfCovers fun c hc => ihUpper c hc hx

theorem ends_boundOf {bound : Cursor → Except CursorFault (Option Position)}
    (ih : ∀ c ∈ half, (bound c).Ends E fun o => ∀ p ∈ o, P p) :
    (boundOf bound half).Ends E fun o => ∀ p ∈ o, P p :=
  forall_half half nofun ih

/-- A floor or a ceiling, which fails where the positions of two halves do not combine. -/
theorem ends_bound {op : Position → Position → Except CursorFault Position}
    {bound : Cursor → Except CursorFault (Option Position)} (hb : IsBound op bound)
    (hop : ∀ {p q}, P p → P q → (op p q).Ends E P) (hc : c.MadeOf P) :
    (bound c).Ends E fun o => ∀ p ∈ o, P p := by
  induction hc with
  | @plain p hp =>
    rw [hb.plain]
    rintro _ ⟨⟩
    exact hp
  | @replay _ current _ _ _ _ ih =>
    rw [hb.replay]
    exact ends_boundOf ih
  | @merged lower upper _ _ _ _ _ ihLower ihUpper =>
    rw [hb.merged]
    refine (ends_boundOf ihLower).bind fun l hl => (ends_boundOf ihUpper).bind fun u hu => ?_
    cases l with
    | none => nofun
    | some p =>
      cases u with
      | none => nofun
      | some q =>
        refine (hop (hl p rfl) (hu q rfl)).bind ?_
        rintro r hr _ ⟨⟩
        exact hr

theorem ends_floor (hs : Setting E P Q) (hc : c.MadeOf P) :
    c.floor.Ends E fun o => ∀ p ∈ o, P p :=
  ends_bound isBound_floor hs.meet hc

theorem ends_ceiling (hs : Setting E P Q) (hc : c.MadeOf P) :
    c.ceiling.Ends E fun o => ∀ p ∈ o, P p :=
  ends_bound isBound_ceiling hs.join hc

theorem ends_floorOf (hs : Setting E P Q) (hhalf : ∀ c ∈ half, MadeOf P c) :
    (floorOf half).Ends E fun o => ∀ p ∈ o, P p := by
  rw [← boundOf_floor]
  exact ends_boundOf fun c hc => hs.ends_floor (hhalf c hc)

theorem ends_ceilingOf (hs : Setting E P Q) (hhalf : ∀ c ∈ half, MadeOf P c) :
    (ceilingOf half).Ends E fun o => ∀ p ∈ o, P p := by
  rw [← boundOf_ceiling]
  exact ends_boundOf fun c hc => hs.ends_ceiling (hhalf c hc)

/-! ### Lowering -/

/-- A half that is lowered stays present or absent. -/
theorem ends_lowerHalf (ih : ∀ c ∈ half, (c.lowerBound x).Ends E (MadeOf P)) :
    (lowerHalf half x).Ends E fun o => o.isSome = half.isSome ∧ ∀ c ∈ o, MadeOf P c := by
  cases half with
  | none => exact ⟨rfl, nofun⟩
  | some c =>
    refine (ih c rfl).bind ?_
    intro d hd
    exact ⟨rfl, hd.some⟩

/-- **Halves are put together to a cursor,** if any of them is present: the way out for an empty
merge is never taken. -/
theorem ends_merge (hpresent : (lower.isSome || upper.isSome) = true)
    (hlower : ∀ c ∈ lower, MadeOf P c) (hupper : ∀ c ∈ upper, MadeOf P c) :
    (match merge lower upper with
      | none => throw .emptyMerge
      | some c => return c : Except CursorFault Cursor).Ends E (MadeOf P) := by
  cases hm : merge lower upper with
  | none =>
    obtain ⟨rfl, rfl⟩ := merge_eq_none_iff.1 hm
    cases hpresent
  | some c => exact MadeOf.merge hlower hupper c hm

/-- **A cursor is lowered to a cursor of the same positions.** Absent halves stay absent and present
ones stay present, so where two halves are put together again there is one. -/
theorem ends_lowerBound (hs : Setting E P Q) (hc : c.MadeOf P) (hx : Q x) :
    (c.lowerBound x).Ends E (MadeOf P) := by
  have hnone {reset : Cursor} (hreset : reset.MadeOf P) : (startReplay reset none).MadeOf P := by
    refine .replay hreset ?_
    rintro _ ⟨⟩
  induction hc generalizing x with
  | plain hp =>
    rw [lowerBound]
    refine (hs.asPlain hx _).bind fun q hq => (hs.meet hp hq).bind ?_
    intro r hr
    exact .plain hr
  | @replay reset current _ hreset _ _ ih =>
    cases current with
    | none => exact hnone hreset
    | some mine =>
      rw [lowerBound]
      cases htheirs : x.progress with
      | none => exact hnone hreset
      | some theirs =>
        refine (ih mine rfl (hs.progress hx theirs htheirs)).bind ?_
        intro d hd
        exact .replay hreset hd.some
  | @merged lower upper _ _ hpresent _ _ ihLower ihUpper =>
    rw [lowerBound]
    refine (ends_lowerHalf fun c hc => ihLower c hc hx).bind ?_
    rintro l ⟨hlsome, hl⟩
    refine (ends_lowerHalf fun c hc => ihUpper c hc hx).bind ?_
    rintro u ⟨husome, hu⟩
    rw [← hlsome, ← husome] at hpresent
    exact ends_merge hpresent hl hu

/-! ### Advancing and raising -/

theorem ends_reaches (hs : Setting E P Q) {reset : Cursor} (hreset : reset.MadeOf P) (hx : Q x) :
    (reaches reset x).Ends E fun _ => True := by
  refine (hs.ends_ceiling hreset).bind ?_
  intro top htop
  cases top with
  | none => trivial
  | some bound => exact hs.ends_covers (hs.madeOf hx) (hs.plain (htop bound rfl))

theorem ends_replayStep (hs : Setting E P Q) {reset : Cursor}
    {raise advance : Cursor → Except CursorFault Cursor} (hreset : reset.MadeOf P) (hx : Q x)
    (hraise : (raise x).Ends E (MadeOf P)) (hadvance : (advance x).Ends E (MadeOf P)) :
    (replayStep reset raise advance x).Ends E (MadeOf P) := by
  refine (hs.ends_reaches hreset hx).bind fun reached _ => (hs.ends_covers hreset hx).bind ?_
  intro covered _
  cases covered with
  | true => exact .replay hreset (hs.madeOf hx).some
  | false =>
    cases reached with
    | true => exact hadvance
    | false =>
      refine hraise.bind fun raised hraised => hadvance.bind ?_
      intro current hcurrent
      exact .replay hraised hcurrent.some

theorem ends_keepOr (hs : Setting E P Q) {advance : Cursor → Except CursorFault Cursor}
    (hc : c.MadeOf P) (hx : Q x) (hadvance : (advance x).Ends E (MadeOf P)) :
    (keepOr c advance x).Ends E (MadeOf P) := by
  refine (hs.ends_covers hc hx).bind ?_
  intro covered _
  cases covered with
  | true => exact hc
  | false => exact hadvance

theorem ends_advanceHalf (hs : Setting E P Q) (hhalf : ∀ c ∈ half, MadeOf P c) (hx : Q x)
    (ih : ∀ c ∈ half, (c.advance x).Ends E (MadeOf P) ∧ (c.upperBound x).Ends E (MadeOf P)) :
    (advanceHalf half x).Ends E (MadeOf P) := by
  cases half with
  | none => exact hs.madeOf hx
  | some c =>
    by_cases hwraps : c.kind.wraps = true
    · rw [advanceHalf_of_wraps hwraps]
      exact hs.ends_keepOr (hhalf c rfl) hx (ih c rfl).1
    · cases c with
      | plain p => exact (ih _ rfl).2
      | replay reset current replaying => exact absurd rfl hwraps
      | merged lower upper lowerAdvanced upperAdvanced => exact absurd rfl hwraps

/-- Halves that were raised are put together as halves that were lowered. -/
theorem upperBound_merged_eq (lower upper : Option Cursor) (lowerAdvanced upperAdvanced : Bool)
    (x : Cursor) : (merged lower upper lowerAdvanced upperAdvanced).upperBound x = (do
      let l ← advanceHalf lower x
      let u ← advanceHalf upper x
      match merge (some l) (some u) with
      | none => throw .emptyMerge
      | some c => return c) := by
  simp only [upperBound, merge_some_some]

/-- The two rules go up the tree together, since a replay both raises and advances its reset
point. -/
theorem ends_advance_and_upperBound (hs : Setting E P Q) (hc : c.MadeOf P) (hx : Q x) :
    (c.advance x).Ends E (MadeOf P) ∧ (c.upperBound x).Ends E (MadeOf P) := by
  induction hc generalizing x with
  | plain hp =>
    refine ⟨hs.madeOf hx, ?_⟩
    rw [upperBound]
    refine (hs.asPlain hx _).bind fun q hq => (hs.join hp hq).bind ?_
    intro r hr
    exact .plain hr
  | @replay reset current replaying hreset hcurrent ih _ =>
    have hstep : ∀ {x}, Q x →
        (replayStep reset (upperBound reset) (advance reset) x).Ends E (MadeOf P) :=
      fun hx => hs.ends_replayStep hreset hx (ih hx).2 (ih hx).1
    refine ⟨hstep hx, ?_⟩
    rw [upperBound]
    cases htheirs : x.progress with
    | none => exact .replay hreset hcurrent
    | some theirs => exact hstep (hs.progress hx theirs htheirs)
  | merged _ hlower hupper ihLower ihUpper =>
    have hlowerEnds := hs.ends_advanceHalf hlower hx fun c hc => ihLower c hc hx
    have hupperEnds := hs.ends_advanceHalf hupper hx fun c hc => ihUpper c hc hx
    rw [advance, upperBound_merged_eq]
    refine ⟨?_, ?_⟩
    · refine hlowerEnds.bind fun l hl => hupperEnds.bind fun u hu => ?_
      dsimp only
      split
      · exact hl
      · exact .merged rfl hl.some hu.some
    · refine hlowerEnds.bind fun l hl => hupperEnds.bind fun u hu => ?_
      exact ends_merge rfl hl.some hu.some

/-- **A cursor advances to a cursor of the same positions.** -/
theorem ends_advance (hs : Setting E P Q) (hc : c.MadeOf P) (hx : Q x) :
    (c.advance x).Ends E (MadeOf P) :=
  (hs.ends_advance_and_upperBound hc hx).1

/-- **A cursor is raised to a cursor of the same positions.** -/
theorem ends_upperBound (hs : Setting E P Q) (hc : c.MadeOf P) (hx : Q x) :
    (c.upperBound x).Ends E (MadeOf P) :=
  (hs.ends_advance_and_upperBound hc hx).2

theorem ends_advanceFrom (hs : Setting E P Q) (hhalf : ∀ c ∈ half, MadeOf P c) (hx : Q x) :
    (advanceFrom half x).Ends E (MadeOf P) := by
  cases half with
  | none => exact hs.madeOf hx
  | some c => exact hs.ends_advance (hhalf c rfl) hx

/-! ### Resetting -/

/-- **A segment starts after a reset from a cursor of the same positions.** -/
theorem ends_reset (hs : Setting E P Q) {point start : Option Cursor}
    (hpoint : ∀ c ∈ point, MadeOf P c) (hstart : ∀ c ∈ start, MadeOf P c) :
    (Cursor.reset point start).Ends E fun o => ∀ c ∈ o, MadeOf P c := by
  cases point with
  | none => exact hstart
  | some point =>
    have hfirst := (hpoint point rfl).firstPoint
    have hreplay : MadeOf P (startReplay point.firstPoint start) := .replay hfirst hstart
    cases start with
    | none =>
      rw [reset_some_none]
      exact hreplay.some
    | some start =>
      rw [reset_some_some]
      refine (hs.ends_floor hfirst).bind ?_
      intro low hlow
      cases low with
      | none => exact hreplay.some
      | some bound =>
        refine (hs.ends_covers (hstart start rfl) (hs.plain (hlow bound rfl))).bind ?_
        intro covered _
        cases covered with
        | true => exact hstart
        | false => exact hreplay.some

end Setting

/-! ### All operations -/

/-- Two absent halves, and only they, are refused. -/
theorem ends_ofHalves (hlower : halfWellFormed lower = true) (hupper : halfWellFormed upper = true) :
    (ofHalves lower upper).Ends (fun fault => fault = .emptyMerge ∧ lower = none ∧ upper = none)
      fun c => c.wellFormed = true := by
  have hmerged (hpresent : (lower.isSome || upper.isSome) = true) :
      (pairHalves lower upper).wellFormed = true := by
    rw [pairHalves, wellFormed, hpresent, hlower, hupper]
    rfl
  cases lower with
  | some l => exact hmerged rfl
  | none =>
    cases upper with
    | some u => exact hmerged rfl
    | none => exact ⟨rfl, rfl, rfl⟩

/-- An operation that comes to a cursor, with its operands. -/
inductive Operation where
  | ofHalves (lower upper : Option Cursor)
  | merge (lower upper : Option Cursor)
  | startReplay (point : Cursor) (current : Option Cursor)
  | reset (point start : Option Cursor)
  | lowerBound (c other : Cursor)
  | upperBound (c other : Cursor)
  | advance (c position : Cursor)
  | advanceFrom (c : Option Cursor) (position : Cursor)
  | floorOf (c : Option Cursor)
  | ceilingOf (c : Option Cursor)

namespace Operation

/-- What an operation comes to. -/
def run : Operation → Except CursorFault (Option Cursor)
  | .ofHalves lower upper => (Cursor.ofHalves lower upper).map some
  | .merge lower upper => .ok (Cursor.merge lower upper)
  | .startReplay point current => .ok (some (Cursor.startReplay point current))
  | .reset point start => Cursor.reset point start
  | .lowerBound c other => (c.lowerBound other).map some
  | .upperBound c other => (c.upperBound other).map some
  | .advance c position => (c.advance position).map some
  | .advanceFrom c position => (Cursor.advanceFrom c position).map some
  | .floorOf c => (Cursor.floorOf c).map fun bound => bound.map plain
  | .ceilingOf c => (Cursor.ceilingOf c).map fun bound => bound.map plain

/-- Whether all operands of an operation, as far as they are present, are well formed. -/
def operandsWellFormed : Operation → Bool
  | .ofHalves lower upper => halfWellFormed lower && halfWellFormed upper
  | .merge lower upper => halfWellFormed lower && halfWellFormed upper
  | .startReplay point current => point.wellFormed && halfWellFormed current
  | .reset point start => halfWellFormed point && halfWellFormed start
  | .lowerBound c other => c.wellFormed && other.wellFormed
  | .upperBound c other => c.wellFormed && other.wellFormed
  | .advance c position => c.wellFormed && position.wellFormed
  | .advanceFrom c position => halfWellFormed c && position.wellFormed
  | .floorOf c => halfWellFormed c
  | .ceilingOf c => halfWellFormed c

/-- **No operation but one comes to an empty merge.** Well-formed operands give a well-formed cursor
or another fault, except where two absent halves are paired. -/
theorem ends_run {op : Operation} (h : op.operandsWellFormed = true)
    (hne : op ≠ .ofHalves none none) :
    op.run.Ends (fun fault => fault ≠ .emptyMerge) fun half => halfWellFormed half = true := by
  have hs := setting_wellFormed
  have hsome {x : Except CursorFault Cursor}
      (hx : x.Ends (fun fault => fault ≠ .emptyMerge) (MadeOf fun _ => True)) :
      (x.map some).Ends (fun fault => fault ≠ .emptyMerge) fun half => halfWellFormed half = true :=
    hx.map fun c (hc : c.MadeOf fun _ => True) => show c.wellFormed = true from
      madeOf_iff_wellFormed.1 hc
  have hbound {x : Except CursorFault (Option Position)}
      (hx : x.Ends (fun fault => fault ≠ .emptyMerge) fun o => ∀ p ∈ o, True) :
      (x.map fun bound => bound.map plain).Ends (fun fault => fault ≠ .emptyMerge)
        fun half => halfWellFormed half = true :=
    hx.map fun o _ => by cases o <;> rfl
  cases op with
  | ofHalves lower upper =>
    obtain ⟨hlower, hupper⟩ := Bool.and_eq_true_iff.1 h
    refine ((ends_ofHalves hlower hupper).mono ?_ fun _ => id).map fun c hc => hc
    rintro fault ⟨-, rfl, rfl⟩
    exact absurd rfl hne
  | merge lower upper =>
    obtain ⟨hlower, hupper⟩ := Bool.and_eq_true_iff.1 h
    exact madeOfHalf_iff_halfWellFormed.1 (MadeOf.merge (madeOfHalf_iff_halfWellFormed.2 hlower)
      (madeOfHalf_iff_halfWellFormed.2 hupper))
  | startReplay point current => exact h
  | reset point start =>
    obtain ⟨hpoint, hstart⟩ := Bool.and_eq_true_iff.1 h
    exact (hs.ends_reset (madeOfHalf_iff_halfWellFormed.2 hpoint)
      (madeOfHalf_iff_halfWellFormed.2 hstart)).mono (fun _ => id)
        fun _ => madeOfHalf_iff_halfWellFormed.1
  | lowerBound c other =>
    obtain ⟨hc, hother⟩ := Bool.and_eq_true_iff.1 h
    exact hsome (hs.ends_lowerBound (madeOf_iff_wellFormed.2 hc) hother)
  | upperBound c other =>
    obtain ⟨hc, hother⟩ := Bool.and_eq_true_iff.1 h
    exact hsome (hs.ends_upperBound (madeOf_iff_wellFormed.2 hc) hother)
  | advance c position =>
    obtain ⟨hc, hposition⟩ := Bool.and_eq_true_iff.1 h
    exact hsome (hs.ends_advance (madeOf_iff_wellFormed.2 hc) hposition)
  | advanceFrom c position =>
    obtain ⟨hc, hposition⟩ := Bool.and_eq_true_iff.1 h
    exact hsome (hs.ends_advanceFrom (madeOfHalf_iff_halfWellFormed.2 hc) hposition)
  | floorOf c => exact hbound (hs.ends_floorOf (madeOfHalf_iff_halfWellFormed.2 h))
  | ceilingOf c => exact hbound (hs.ends_ceilingOf (madeOfHalf_iff_halfWellFormed.2 h))

end Operation

end Cursor

end StreamProgress
