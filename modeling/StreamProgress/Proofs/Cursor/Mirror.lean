import StreamProgress.Proofs.Cursor.Faults

/-!
# Mirrored cursors

The two halves of a merged cursor are treated by rules that are written down twice, and where a half
has to stand for both it is always the lower one. `Cursor.mirror` exchanges the halves of every merged
cursor in a cursor, also in reset points, and the statements below say that nothing but flags can tell
which half is which: what is asked of a mirrored cursor is answered as it was, and an operation on it
comes to the mirrored result.

## Why the results agree only up to flags

Halves that are equal may still differ in their flags, and of two such halves the lower one is kept. So
the results are compared as `Cursor.Reflects` does.

## Why the kinds have to agree

Of two parts of different kinds, the one that is met first is named first by the fault. Coverage even
stops at a lower half that does not cover, and then a fault of the upper half does not occur. With all
positions of one kind there are no faults (`Cursor.setting_ofKind`).

## Main definitions

* `Cursor.mirror` — the cursor with the halves of every merged cursor exchanged
* `Cursor.Reflects` — a cursor is, up to flags, the mirror of another one

## Main results

* `Cursor.floor_mirror`, `ceiling_mirror`, `covers_mirror`, `unwrap_merged_mirror` — questions
* `Cursor.exists_lowerBound_mirror`, `exists_advance_mirror`, `exists_upperBound_mirror` — operations
-/

namespace StreamProgress

namespace Cursor

mutual

/-- The cursor with the two halves of every merged cursor in it exchanged, together with their
flags. -/
def mirror : Cursor → Cursor
  | .plain p => .plain p
  | .replay reset current replaying => .replay (mirror reset) (mirrorHalf current) replaying
  | .merged lower upper lowerAdvanced upperAdvanced =>
    .merged (mirrorHalf upper) (mirrorHalf lower) upperAdvanced lowerAdvanced

/-- The optional cursor with the two halves of every merged cursor in it exchanged. -/
def mirrorHalf : Option Cursor → Option Cursor
  | none => none
  | some c => some (mirror c)

end

/-- A cursor is the mirror of another one, up to flags. -/
def Reflects (r' r : Cursor) : Prop := r'.bare = r.mirror.bare

variable {c d c' d' r l u l' u' : Cursor} {half lower upper : Option Cursor} {k : Kind}
  {p x : Position} {P : Position → Prop} {op : Position → Position → Except CursorFault Position}
  {bound : Cursor → Except CursorFault (Option Position)} {o : Option Position}

/-! ### Mirroring -/

theorem mirrorHalf_eq_map (half : Option Cursor) : mirrorHalf half = half.map mirror := by
  cases half <;> rfl

/-- What is mirrored twice is what it was. -/
@[simp] theorem mirror_mirror (c : Cursor) : c.mirror.mirror = c := by
  have hhalf : ∀ half : Option Cursor, (∀ c ∈ half, c.mirror.mirror = c) →
      mirrorHalf (mirrorHalf half) = half := by
    intro half ih
    cases half with
    | none => rfl
    | some c => exact congrArg some (ih c rfl)
  induction c with
  | plain p => rfl
  | replay reset current replaying ihReset ihCurrent =>
    rw [mirror, mirror, ihReset, hhalf current ihCurrent]
  | merged lower upper lowerAdvanced upperAdvanced ihLower ihUpper =>
    rw [mirror, mirror, hhalf lower ihLower, hhalf upper ihUpper]

theorem mirror_injective : Function.Injective mirror :=
  Function.LeftInverse.injective mirror_mirror

@[simp] theorem kind_mirror (c : Cursor) : c.mirror.kind = c.kind := by
  cases c <;> rfl

theorem bare_mirror (c : Cursor) : c.mirror.bare = c.bare.mirror := by
  have hhalf : ∀ half : Option Cursor, (∀ c ∈ half, c.mirror.bare = c.bare.mirror) →
      bareHalf (mirrorHalf half) = mirrorHalf (bareHalf half) := by
    intro half ih
    cases half with
    | none => rfl
    | some c => exact congrArg some (ih c rfl)
  induction c with
  | plain p => rfl
  | replay reset current replaying ihReset ihCurrent =>
    rw [mirror, bare, bare, mirror, ihReset, hhalf current ihCurrent]
  | merged lower upper lowerAdvanced upperAdvanced ihLower ihUpper =>
    rw [mirror, bare, bare, mirror, hhalf lower ihLower, hhalf upper ihUpper]

theorem madeOf_mirror (h : c.MadeOf P) : c.mirror.MadeOf P := by
  have hhalf : ∀ {half : Option Cursor}, (∀ c ∈ half, c.mirror.MadeOf P) →
      ∀ c ∈ mirrorHalf half, c.MadeOf P := by
    intro half ih
    cases half with
    | none => exact nofun
    | some c => exact MadeOf.some (ih c rfl)
  induction h with
  | plain hp => exact .plain hp
  | replay _ _ ihReset ihCurrent => exact .replay ihReset (hhalf ihCurrent)
  | @merged lower upper _ _ hpresent _ _ ihLower ihUpper =>
    refine .merged ?_ (hhalf ihUpper) (hhalf ihLower)
    rw [Bool.or_comm, mirrorHalf_eq_map, mirrorHalf_eq_map, Option.isSome_map, Option.isSome_map]
    exact hpresent

/-! ### Mirrors up to flags -/

theorem reflects_iff : c'.Reflects c ↔ (c' == c.mirror) = true := beq_iff.symm

theorem reflects_mirror (c : Cursor) : c.mirror.Reflects c := rfl

theorem Reflects.kind (h : c'.Reflects c) : c'.kind = c.kind := by
  rw [← kind_bare, h, kind_bare, kind_mirror]

/-- Mirrors are equal where the cursors are. -/
theorem Reflects.beq (hc : c'.Reflects c) (hd : d'.Reflects d) : (c' == d') = (c == d) := by
  rw [Bool.eq_iff_iff, beq_iff, beq_iff, hc, hd, bare_mirror, bare_mirror,
    mirror_injective.eq_iff]

/-- A half has moved where its mirror has. -/
theorem Reflects.bne_half (h : c'.Reflects c) (half : Option Cursor) :
    (mirrorHalf half != some c') = (half != some c) := by
  cases half with
  | none => rfl
  | some d => exact congrArg not ((reflects_mirror d).beq h)

/-- A cursor that is equal to a mirrored one is a mirror as well. -/
theorem Reflects.of_beq (h : c'.Reflects c) (heq : (c == d) = true) : c'.Reflects d := by
  rw [Reflects, h, bare_mirror, beq_iff.1 heq, bare_mirror]

/-- Two halves put together, and their mirrors in the other order. -/
theorem Reflects.mergeSome (hl : l'.Reflects l) (hu : u'.Reflects u) :
    (mergeSome u' l').Reflects (mergeSome l u) := by
  have heq : (u' == l') = (l == u) := by
    rw [hu.beq hl, Bool.eq_iff_iff, beq_iff, beq_iff, eq_comm]
  rw [Cursor.mergeSome, Cursor.mergeSome, heq]
  split
  · rename_i h
    exact hu.of_beq (beq_iff.2 (beq_iff.1 h).symm)
  · rw [Reflects, pairHalves, pairHalves, mirror, bare, bare, mirrorHalf, mirrorHalf, bareHalf,
      bareHalf, bareHalf, bareHalf, hl, hu]

/-! ### Bounds and coverage -/

theorem combine_comm (hop : ∀ {p q r}, op p q = .ok r → op q p = .ok r) {l u : Option Position}
    (h : combine op l u = .ok o) : combine op u l = .ok o := by
  cases l with
  | none => cases u <;> exact h
  | some p =>
    cases u with
    | none => exact h
    | some q =>
      obtain ⟨r, hr, h⟩ := Except.bind_eq_ok_iff.1 h
      rw [combine, hop hr]
      exact h

theorem IsBound.mirror (hb : IsBound op bound) (hop : ∀ {p q r}, op p q = .ok r → op q p = .ok r)
    (h : bound c = .ok o) : bound c.mirror = .ok o := by
  have hhalf : ∀ {half : Option Cursor} {o : Option Position},
      (∀ c ∈ half, ∀ o, bound c = .ok o → bound c.mirror = .ok o) →
        boundOf bound half = .ok o → boundOf bound (mirrorHalf half) = .ok o := by
    intro half o ih h
    cases half with
    | none => exact h
    | some c => exact ih c rfl o h
  induction c generalizing o with
  | plain p => exact h
  | replay reset current replaying _ ih =>
    rw [hb.replay] at h
    rw [Cursor.mirror, hb.replay]
    exact hhalf (fun c hc o => ih c hc) h
  | merged lower upper lowerAdvanced upperAdvanced ihLower ihUpper =>
    obtain ⟨l, u, hl, hu, h⟩ := hb.merged_eq_ok_iff.1 h
    exact hb.merged_eq_ok_iff.2 ⟨u, l, hhalf (fun c hc o => ihUpper c hc) hu,
      hhalf (fun c hc o => ihLower c hc) hl, combine_comm hop h⟩

/-- **Mirrored cursors have the same floor.** -/
theorem floor_mirror (hc : c.MadeOf fun p => p.kind = k) : c.mirror.floor = c.floor := by
  obtain ⟨o, ho, -⟩ := ((setting_ofKind k).ends_floor hc).exists_eq_ok
  rw [ho, isBound_floor.mirror Position.meet_comm ho]

/-- **Mirrored cursors have the same ceiling.** -/
theorem ceiling_mirror (hc : c.MadeOf fun p => p.kind = k) : c.mirror.ceiling = c.ceiling := by
  obtain ⟨o, ho, -⟩ := ((setting_ofKind k).ends_ceiling hc).exists_eq_ok
  rw [ho, isBound_ceiling.mirror Position.join_comm ho]

/-- **Mirrored cursors cover the same positions,** though they ask their halves in another order. -/
theorem covers_mirror (hc : c.MadeOf fun p => p.kind = k) (hx : x.kind = k) :
    c.mirror.covers (plain x) = c.covers (plain x) := by
  obtain ⟨b, hb, -⟩ := ((setting_ofKind k).ends_covers hc ⟨x, rfl, hx⟩).exists_eq_ok
  obtain ⟨b', hb', -⟩ :=
    ((setting_ofKind k).ends_covers (madeOf_mirror hc) ⟨x, rfl, hx⟩).exists_eq_ok
  have hiff : c.mirror.covers (plain x) = .ok true ↔ c.covers (plain x) = .ok true := by
    rw [covers_eq_ok_true_iff, covers_eq_ok_true_iff, floor_mirror hc]
  rw [hb, hb', Except.ok.injEq, Except.ok.injEq, ← Bool.eq_iff_iff] at hiff
  rw [hb, hb', hiff]

theorem reaches_mirror (hc : c.MadeOf fun p => p.kind = k) :
    reaches c.mirror (plain x) = reaches c (plain x) := by
  rw [reaches, reaches, ceiling_mirror hc]

/-- The merged cursor in a cursor, mirrored. -/
theorem unwrap_merged_mirror (c : Cursor) :
    unwrap .merged c.mirror = (unwrap .merged c).map mirror := by
  induction c with
  | plain p => cases p <;> rfl
  | replay reset current replaying _ ih =>
    cases current with
    | none => rfl
    | some d => exact ih d rfl
  | merged lower upper lowerAdvanced upperAdvanced _ _ => rfl

/-! ### Lowering -/

theorem exists_lowerHalf_mirror {lowered : Option Cursor}
    (h : lowerHalf half (plain x) = .ok lowered)
    (ih : ∀ c ∈ half, ∀ r, c.lowerBound (plain x) = .ok r →
      ∃ r', c.mirror.lowerBound (plain x) = .ok r' ∧ r'.Reflects r) :
    ∃ lowered', lowerHalf (mirrorHalf half) (plain x) = .ok lowered' ∧
      lowered'.map bare = (mirrorHalf lowered).map bare := by
  cases half with
  | none =>
    obtain rfl : none = lowered := Except.ok.inj h
    exact ⟨none, rfl, rfl⟩
  | some c =>
    obtain ⟨r, hr, rfl⟩ := lowerHalf_some_eq_ok_iff.1 h
    obtain ⟨r', hr', hreflects⟩ := ih c rfl r hr
    exact ⟨some r', lowerHalf_some_eq_ok_iff.2 ⟨r', hr', rfl⟩, congrArg some hreflects⟩

/-- Halves put together, and their mirrors in the other order. -/
theorem exists_merge_mirror {lower' upper' : Option Cursor} (h : merge lower upper = some r)
    (hlower : lower'.map bare = (mirrorHalf lower).map bare)
    (hupper : upper'.map bare = (mirrorHalf upper).map bare) :
    ∃ r', merge upper' lower' = some r' ∧ r'.Reflects r := by
  have hmirror : ∃ r', merge (mirrorHalf upper) (mirrorHalf lower) = some r' ∧ r'.Reflects r := by
    cases lower with
    | none =>
      cases upper with
      | none => cases h
      | some u => exact ⟨_, rfl, Option.some.inj h ▸ rfl⟩
    | some l =>
      cases upper with
      | none => exact ⟨_, rfl, Option.some.inj h ▸ rfl⟩
      | some u =>
        rw [merge_some_some, Option.some.injEq] at h
        exact ⟨_, merge_some_some _ _, h ▸ (reflects_mirror l).mergeSome (reflects_mirror u)⟩
  obtain ⟨m, hm, hreflects⟩ := hmirror
  have hcongr := merge_congr hupper hlower
  rw [hm] at hcongr
  obtain ⟨r', hr', hbare⟩ := Option.map_eq_some_iff.1 hcongr
  exact ⟨r', hr', hbare.trans hreflects⟩

/-- **A mirrored cursor is lowered to the mirror.** -/
theorem exists_lowerBound_mirror (h : c.lowerBound (plain x) = .ok r) :
    ∃ r', c.mirror.lowerBound (plain x) = .ok r' ∧ r'.Reflects r := by
  induction c generalizing r with
  | plain p =>
    obtain ⟨q, -, rfl⟩ := lowerBound_plain_eq_ok_iff.1 h
    exact ⟨plain q, h, rfl⟩
  | replay reset current replaying _ ih =>
    obtain ⟨o, ho, rfl⟩ := lowerBound_replay_plain_eq_ok_iff.1 h
    obtain ⟨o', ho', hbare⟩ := exists_lowerHalf_mirror ho fun c hc r => ih c hc
    refine ⟨startReplay reset.mirror o', lowerBound_replay_plain_eq_ok_iff.2 ⟨o', ho', rfl⟩, ?_⟩
    rw [Reflects, startReplay, startReplay, mirror, bare, bare, bareHalf_eq_map, bareHalf_eq_map,
      hbare]
  | merged lower upper lowerAdvanced upperAdvanced ihLower ihUpper =>
    obtain ⟨l, u, hl, hu, hm⟩ := lowerBound_merged_eq_ok_iff.1 h
    obtain ⟨l', hl', hlbare⟩ := exists_lowerHalf_mirror hl fun c hc r => ihLower c hc
    obtain ⟨u', hu', hubare⟩ := exists_lowerHalf_mirror hu fun c hc r => ihUpper c hc
    obtain ⟨r', hm', hreflects⟩ := exists_merge_mirror hm hlbare hubare
    exact ⟨r', lowerBound_merged_eq_ok_iff.2 ⟨u', l', hu', hl', hm'⟩, hreflects⟩

/-! ### Advancing and raising -/

theorem HalfMove.mirror (h : HalfMove (plain x) half r)
    (hhalf : ∀ c ∈ half, c.MadeOf fun p => p.kind = k) (hx : x.kind = k)
    (ih : ∀ c ∈ half, ∀ r, c.advance (plain x) = .ok r →
      ∃ r', c.mirror.advance (plain x) = .ok r' ∧ r'.Reflects r) :
    ∃ r', HalfMove (plain x) (mirrorHalf half) r' ∧ r'.Reflects r := by
  cases h with
  | started => exact ⟨plain x, .started, rfl⟩
  | joined h =>
    obtain ⟨s, hs, rfl⟩ := upperBound_plain_eq_ok_iff.1 h
    exact ⟨plain s, .joined h, rfl⟩
  | kept hwraps hcovers =>
    refine ⟨r.mirror, .kept ?_ ?_, rfl⟩
    · rwa [kind_mirror]
    · rwa [covers_mirror (hhalf r rfl) hx]
  | @moved c _ hwraps hcovers h =>
    obtain ⟨r', hr', hreflects⟩ := ih c rfl r h
    refine ⟨r', .moved ?_ ?_ hr', hreflects⟩
    · rwa [kind_mirror]
    · rwa [covers_mirror (hhalf c rfl) hx]

theorem ReplayMove.mirror {reset : Cursor} (h : ReplayMove (plain x) reset r)
    (hreset : reset.MadeOf fun p => p.kind = k) (hx : x.kind = k)
    (hadvance : ∀ r, reset.advance (plain x) = .ok r →
      ∃ r', reset.mirror.advance (plain x) = .ok r' ∧ r'.Reflects r)
    (hraise : ∀ r, reset.upperBound (plain x) = .ok r →
      ∃ r', reset.mirror.upperBound (plain x) = .ok r' ∧ r'.Reflects r) :
    ∃ r', ReplayMove (plain x) reset.mirror r' ∧ r'.Reflects r := by
  cases h with
  | reread b hreaches hcovers =>
    refine ⟨_, .reread b ?_ ?_, rfl⟩
    · rwa [reaches_mirror hreset]
    · rwa [covers_mirror hreset hx]
  | ended hreaches hcovers h =>
    obtain ⟨r', hr', hreflects⟩ := hadvance r h
    refine ⟨r', .ended ?_ ?_ hr', hreflects⟩
    · rwa [reaches_mirror hreset]
    · rwa [covers_mirror hreset hx]
  | raised hreaches hcovers hup h =>
    obtain ⟨reset', hreset', hraised⟩ := hraise _ hup
    obtain ⟨current', hcurrent', hadvanced⟩ := hadvance _ h
    refine ⟨_, .raised ?_ ?_ hreset' hcurrent', ?_⟩
    · rwa [reaches_mirror hreset]
    · rwa [covers_mirror hreset hx]
    · rw [Reflects, Cursor.mirror, bare, bare, mirrorHalf, bareHalf, bareHalf, hraised, hadvanced]

theorem MergedMove.mirror (h : MergedMove (plain x) lower upper r)
    (hlower : ∀ l, HalfMove (plain x) lower l →
      ∃ l', HalfMove (plain x) (mirrorHalf lower) l' ∧ l'.Reflects l)
    (hupper : ∀ u, HalfMove (plain x) upper u →
      ∃ u', HalfMove (plain x) (mirrorHalf upper) u' ∧ u'.Reflects u) :
    ∃ r', MergedMove (plain x) (mirrorHalf upper) (mirrorHalf lower) r' ∧ r'.Reflects r := by
  cases h with
  | @converged _ u hl hu hlmoved humoved heq =>
    obtain ⟨l', hl', hlreflects⟩ := hlower r hl
    obtain ⟨u', hu', hureflects⟩ := hupper u hu
    have heq' : (u == r) = true := beq_iff.2 (beq_iff.1 heq).symm
    refine ⟨u', .converged hu' hl' ?_ ?_ ?_, hureflects.of_beq heq'⟩
    · rwa [hureflects.bne_half]
    · rwa [hlreflects.bne_half]
    · rwa [hureflects.beq hlreflects]
  | @pending l u hl hu hne =>
    obtain ⟨l', hl', hlreflects⟩ := hlower l hl
    obtain ⟨u', hu', hureflects⟩ := hupper u hu
    refine ⟨_, .pending hu' hl' ?_, ?_⟩
    · have heq : (u == l) = (l == u) := by rw [Bool.eq_iff_iff, beq_iff, beq_iff, eq_comm]
      rw [hureflects.bne_half, hlreflects.bne_half, hureflects.beq hlreflects, heq,
        Bool.and_comm (upper != some u)]
      exact hne
    · rw [Reflects, Cursor.mirror, bare, bare, mirrorHalf, mirrorHalf, bareHalf, bareHalf, bareHalf,
        bareHalf, hlreflects, hureflects]

/-- The two rules go up the tree together, since a replay both raises and advances its reset
point. -/
theorem exists_advance_and_upperBound_mirror (hc : c.MadeOf fun p => p.kind = k) (hx : x.kind = k) :
    (∀ r, c.advance (plain x) = .ok r →
        ∃ r', c.mirror.advance (plain x) = .ok r' ∧ r'.Reflects r) ∧
      ∀ r, c.upperBound (plain x) = .ok r →
        ∃ r', c.mirror.upperBound (plain x) = .ok r' ∧ r'.Reflects r := by
  induction hc with
  | plain hp =>
    constructor
    · intro r h
      obtain rfl : plain x = r := Except.ok.inj h
      exact ⟨plain x, rfl, rfl⟩
    · intro r h
      obtain ⟨s, -, rfl⟩ := upperBound_plain_eq_ok_iff.1 h
      exact ⟨plain s, h, rfl⟩
  | @replay reset current replaying hreset _ ih _ =>
    have hmove : ∀ r, (replay reset current replaying).advance (plain x) = .ok r →
        ∃ r', (replay reset current replaying).mirror.advance (plain x) = .ok r' ∧
          r'.Reflects r := by
      intro r h
      obtain ⟨r', hr', hreflects⟩ :=
        (advance_replay_eq_ok_iff.1 h).mirror hreset hx ih.1 ih.2
      exact ⟨r', advance_replay_eq_ok_iff.2 hr', hreflects⟩
    exact ⟨hmove, hmove⟩
  | merged _ hlower hupper ihLower ihUpper =>
    have hlowerMove := fun l (hl : HalfMove (plain x) _ l) =>
      hl.mirror hlower hx fun c hc => (ihLower c hc).1
    have hupperMove := fun u (hu : HalfMove (plain x) _ u) =>
      hu.mirror hupper hx fun c hc => (ihUpper c hc).1
    constructor
    · intro r h
      obtain ⟨r', hr', hreflects⟩ := (advance_merged_eq_ok_iff.1 h).mirror hlowerMove hupperMove
      exact ⟨r', advance_merged_eq_ok_iff.2 hr', hreflects⟩
    · intro r h
      obtain ⟨l, u, hl, hu, rfl⟩ := upperBound_merged_eq_ok_iff.1 h
      obtain ⟨l', hl', hlreflects⟩ := hlowerMove l hl
      obtain ⟨u', hu', hureflects⟩ := hupperMove u hu
      exact ⟨_, upperBound_merged_eq_ok_iff.2 ⟨u', l', hu', hl', rfl⟩,
        hlreflects.mergeSome hureflects⟩

/-- **A mirrored cursor advances to the mirror.** -/
theorem exists_advance_mirror (hc : c.MadeOf fun p => p.kind = k) (hx : x.kind = k)
    (h : c.advance (plain x) = .ok r) :
    ∃ r', c.mirror.advance (plain x) = .ok r' ∧ r'.Reflects r :=
  (exists_advance_and_upperBound_mirror hc hx).1 r h

/-- **A mirrored cursor is raised to the mirror.** -/
theorem exists_upperBound_mirror (hc : c.MadeOf fun p => p.kind = k) (hx : x.kind = k)
    (h : c.upperBound (plain x) = .ok r) :
    ∃ r', c.mirror.upperBound (plain x) = .ok r' ∧ r'.Reflects r :=
  (exists_advance_and_upperBound_mirror hc hx).2 r h

end Cursor

end StreamProgress
