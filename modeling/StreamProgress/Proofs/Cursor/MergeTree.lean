import StreamProgress.Proofs.Cursor.Leaves

/-!
# Merge trees

A merge tree is a cursor made of merges alone: its leaves are positions of one kind, and its nodes
are merged cursors, nested to any depth, where a half may be absent. A segment that was put
together from several siblings has such a cursor until all of them have converged.

## Moves

On a merge tree an advance never fails (`Cursor.MergeTree.exists_advance`), and what it does is one
relation, `Cursor.TreeMove`, with its own induction: halves start, are joined, stay, converge or
stay apart. The statements about where a tree moves are inductions on `TreeMove`, and each of them
holds at the root and at every half alike.

## Main results

* `Cursor.MergeTree.exists_advance` — a merge tree advances to a position of its kind
* `Cursor.TreeMove.exists_raise` — the floor is raised by the position
* `Cursor.TreeMove.wraps_or_eq` — a leaf that has the position keeps the tree from converging
* `Cursor.TreeMove.eq_plain` — a position beyond all leaves makes the tree converge
-/

namespace StreamProgress

namespace Position

/-- A floor that may be absent, raised by a position. -/
def raise : Option Position → Position → Except CursorFault Position
  | none, x => .ok x
  | some p, x => p.join x

variable {l u : Option Position} {l' u' m' x : Position} {m : Option Position}

theorem le_of_raise (h : raise l x = .ok l') : x ≤ l' := by
  cases l with
  | none =>
    obtain rfl : x = l' := Except.ok.inj h
    exact le_rfl
  | some p => exact le_join_right h

/-- Raising two floors raises their meet. Where one is absent so is the meet, and then both the
raised meet and the raised absent floor are the position itself, which the other floor covers. -/
theorem raise_combine (hm : Cursor.combine meet l u = .ok m) (hl : raise l x = .ok l')
    (hu : raise u x = .ok u') : ∃ m', raise m x = .ok m' ∧ l'.meet u' = .ok m' := by
  cases l with
  | none =>
    obtain rfl : none = m := Except.ok.inj hm
    obtain rfl : x = l' := Except.ok.inj hl
    exact ⟨x, rfl, meet_of_le (le_of_raise hu)⟩
  | some p =>
    cases u with
    | none =>
      obtain rfl : none = m := Except.ok.inj hm
      obtain rfl : x = u' := Except.ok.inj hu
      exact ⟨x, rfl, meet_of_ge (le_of_raise hl)⟩
    | some q =>
      rw [Cursor.combine, Except.bind_eq_ok_iff] at hm
      obtain ⟨r, hr, h⟩ := hm
      obtain rfl : some r = m := Except.ok.inj h
      exact meet_join_join hr hl hu

end Position

namespace Cursor

variable {c r : Cursor} {half lower upper : Option Cursor} {lowerAdvanced upperAdvanced : Bool}
  {k : Kind} {p x : Position}

/-- A cursor made of merges alone, over plain positions of one kind. -/
inductive MergeTree (k : Kind) : Cursor → Prop
  | leaf {p : Position} (hkind : p.kind = k) : MergeTree k (plain p)
  | node {lower upper : Option Cursor} {lowerAdvanced upperAdvanced : Bool}
      (hlower : ∀ c ∈ lower, MergeTree k c) (hupper : ∀ c ∈ upper, MergeTree k c) :
      MergeTree k (merged lower upper lowerAdvanced upperAdvanced)

namespace MergeTree

/-- A merge tree that wraps other cursors is merged. -/
theorem eq_merged_of_wraps (h : MergeTree k c) (hwraps : c.kind.wraps = true) :
    ∃ lower upper lowerAdvanced upperAdvanced, c = merged lower upper lowerAdvanced upperAdvanced ∧
      (∀ d ∈ lower, MergeTree k d) ∧ ∀ d ∈ upper, MergeTree k d := by
  cases h with
  | leaf hkind =>
    rw [kind_wraps_plain] at hwraps
    cases hwraps
  | node hlower hupper => exact ⟨_, _, _, _, rfl, hlower, hupper⟩

theorem kind_of_mem_leaves (h : MergeTree k c) (hp : some p ∈ c.leaves) : p.kind = k := by
  induction h with
  | leaf hkind =>
    obtain rfl : p = _ := Option.some.inj (List.mem_singleton.1 hp)
    exact hkind
  | @node lower upper _ _ _ _ ihLower ihUpper =>
    have hlower : some p ∈ leavesOf lower → p.kind = k := forall_half lower (by simp) ihLower
    have hupper : some p ∈ leavesOf upper → p.kind = k := forall_half upper (by simp) ihUpper
    exact (mem_leaves_merged.1 hp).elim hlower hupper

/-! ### A merge tree answers -/

/-- A merge tree compares with positions of its kind. -/
theorem exists_covers (h : MergeTree k c) (hx : x.kind = k) :
    ∃ b, c.covers (plain x) = .ok b := by
  induction h with
  | leaf hkind => exact ⟨_, Position.covers_of_kind_eq (hkind.trans hx.symm)⟩
  | @node lower upper _ _ _ _ ihLower ihUpper =>
    obtain ⟨b, hb⟩ : ∃ b, halfCovers lower (plain x) = .ok b :=
      forall_half lower ⟨false, rfl⟩ ihLower
    have hupper : ∃ b, halfCovers upper (plain x) = .ok b :=
      forall_half upper ⟨false, rfl⟩ ihUpper
    rw [covers_merged, hb, Except.ok_bind]
    cases b with
    | true => exact hupper
    | false => exact ⟨false, rfl⟩

/-- A merge tree has a floor or lacks a leaf, but no two of its leaves refuse each other. -/
theorem exists_floor (h : MergeTree k c) : ∃ o, c.floor = .ok o ∧ ∀ p ∈ o, p.kind = k := by
  induction h with
  | leaf hkind =>
    refine ⟨_, rfl, ?_⟩
    rintro _ ⟨⟩
    exact hkind
  | @node lower upper _ _ _ _ ihLower ihUpper =>
    obtain ⟨l, hl, hlkind⟩ : ∃ o, floorOf lower = .ok o ∧ ∀ p ∈ o, p.kind = k :=
      forall_half lower ⟨none, rfl, nofun⟩ ihLower
    obtain ⟨u, hu, hukind⟩ : ∃ o, floorOf upper = .ok o ∧ ∀ p ∈ o, p.kind = k :=
      forall_half upper ⟨none, rfl, nofun⟩ ihUpper
    rw [floor, hl, hu, Except.ok_bind, Except.ok_bind]
    cases l with
    | none => exact ⟨none, rfl, nofun⟩
    | some p =>
      cases u with
      | none => exact ⟨none, rfl, nofun⟩
      | some q =>
        have hp := hlkind p rfl
        have hq := hukind q rfl
        obtain ⟨r, hr⟩ := Position.exists_meet (hp.trans hq.symm)
        refine ⟨some r, by rw [combine, hr]; rfl, ?_⟩
        rintro _ ⟨⟩
        exact (Position.kind_eq_of_le (Position.meet_le_left hr)).trans hp

end MergeTree

/-! ### Moves of a merge tree -/

/-- The move of a merge tree, or of an absent half, to the position `x`. -/
inductive TreeMove (x : Position) : Option Cursor → Cursor → Prop
  /-- An absent half starts at the position. -/
  | started : TreeMove x none (plain x)
  /-- A plain half is joined with the position. -/
  | joined {p s : Position} (hjoin : p.join x = .ok s) : TreeMove x (some (plain p)) (plain s)
  /-- A merged half that covers the position stays what it is. -/
  | kept {c : Cursor} (hwraps : c.kind.wraps = true) (hcovers : c.covers (plain x) = .ok true) :
    TreeMove x (some c) c
  /-- Both halves of a merged cursor have moved and are equal now. -/
  | converged {lower upper : Option Cursor} {lowerAdvanced upperAdvanced : Bool} {l u : Cursor}
      (hl : TreeMove x lower l) (hu : TreeMove x upper u) (hlower : (lower != some l) = true)
      (hupper : (upper != some u) = true) (heq : (l == u) = true) :
      TreeMove x (some (merged lower upper lowerAdvanced upperAdvanced)) l
  /-- A half of a merged cursor has not moved, or the halves still differ. -/
  | pending {lower upper : Option Cursor} {lowerAdvanced upperAdvanced : Bool} {l u : Cursor}
      (hl : TreeMove x lower l) (hu : TreeMove x upper u)
      (hne : (lower != some l && upper != some u && l == u) = false) :
      TreeMove x (some (merged lower upper lowerAdvanced upperAdvanced))
        (merged (some l) (some u) (lower != some l) (upper != some u))

/-- A half of a merge tree moves within the tree, if what it wraps does. -/
theorem TreeMove.of_halfMove (h : HalfMove (plain x) half r)
    (ih : ∀ c ∈ half, ∀ r, c.kind.wraps = true → c.advance (plain x) = .ok r →
      TreeMove x (some c) r) : TreeMove x half r := by
  cases h with
  | started => exact .started
  | joined hjoin =>
    obtain ⟨s, hs, rfl⟩ := upperBound_plain_eq_ok_iff.1 hjoin
    exact .joined hs
  | kept hwraps hcovers => exact .kept hwraps hcovers
  | moved hwraps _ hadvance => exact ih _ rfl _ hwraps hadvance

theorem MergeTree.treeMove (h : MergeTree k c) (hwraps : c.kind.wraps = true)
    (hr : c.advance (plain x) = .ok r) : TreeMove x (some c) r := by
  induction h generalizing r with
  | leaf hkind =>
    rw [kind_wraps_plain] at hwraps
    cases hwraps
  | node _ _ ihLower ihUpper =>
    cases advance_merged_eq_ok_iff.1 hr with
    | converged hl hu hlower hupper heq =>
      exact .converged (.of_halfMove hl fun c hc r hw h => ihLower c hc hw h)
        (.of_halfMove hu fun c hc r hw h => ihUpper c hc hw h) hlower hupper heq
    | pending hl hu hne =>
      exact .pending (.of_halfMove hl fun c hc r hw h => ihLower c hc hw h)
        (.of_halfMove hu fun c hc r hw h => ihUpper c hc hw h) hne

/-- **A merge tree advances to every position of its kind.** -/
theorem MergeTree.exists_advance (h : MergeTree k c) (hx : x.kind = k) :
    ∃ r, c.advance (plain x) = .ok r := by
  have hhalf : ∀ half : Option Cursor, (∀ d ∈ half, MergeTree k d) →
      (∀ d ∈ half, ∃ r, d.advance (plain x) = .ok r) →
      ∃ r, HalfMove (plain x) half r := by
    intro half htree ih
    cases half with
    | none => exact ⟨_, .started⟩
    | some d =>
      cases htree d rfl with
      | leaf hkind =>
        obtain ⟨s, hs⟩ := Position.exists_join (hkind.trans hx.symm)
        exact ⟨_, .joined (upperBound_plain_eq_ok_iff.2 ⟨s, hs, rfl⟩)⟩
      | node hlower hupper =>
        obtain ⟨b, hb⟩ := (htree _ rfl).exists_covers hx
        cases b with
        | true => exact ⟨_, .kept rfl hb⟩
        | false =>
          obtain ⟨r, hr⟩ := ih _ rfl
          exact ⟨r, .moved rfl hb hr⟩
  induction h with
  | leaf hkind => exact ⟨_, rfl⟩
  | @node lower upper _ _ hlower hupper ihLower ihUpper =>
    obtain ⟨l, hl⟩ := hhalf lower hlower ihLower
    obtain ⟨u, hu⟩ := hhalf upper hupper ihUpper
    cases hne : (lower != some l && upper != some u && l == u) with
    | false => exact ⟨_, advance_merged_eq_ok_iff.2 (.pending hl hu hne)⟩
    | true =>
      simp only [Bool.and_eq_true] at hne
      exact ⟨_, advance_merged_eq_ok_iff.2 (.converged hl hu hne.1.1 hne.1.2 hne.2)⟩

namespace TreeMove

/-- A merge tree stays one. -/
theorem mergeTree (h : TreeMove x half r) (htree : ∀ c ∈ half, MergeTree k c) (hx : x.kind = k) :
    MergeTree k r := by
  induction h with
  | started => exact .leaf hx
  | joined hjoin =>
    exact .leaf ((Position.kind_eq_of_le (Position.le_join_right hjoin)).symm.trans hx)
  | kept => exact htree _ rfl
  | converged _ _ _ _ _ ihLower _ =>
    cases htree _ rfl with
    | node hlower _ => exact ihLower hlower
  | pending _ _ _ ihLower ihUpper =>
    cases htree _ rfl with
    | node hlower hupper =>
      refine .node ?_ ?_
      · rintro _ ⟨⟩
        exact ihLower hlower
      · rintro _ ⟨⟩
        exact ihUpper hupper

/-- **The floor is raised by the position.** -/
theorem exists_raise {lo : Option Position} (h : TreeMove x half r) (hlo : floorOf half = .ok lo) :
    ∃ lo', Position.raise lo x = .ok lo' ∧ r.floor = .ok (some lo') := by
  induction h generalizing lo with
  | started =>
    obtain rfl : none = lo := Except.ok.inj hlo
    exact ⟨x, rfl, rfl⟩
  | @joined p s hjoin =>
    obtain rfl : some p = lo := Except.ok.inj hlo
    exact ⟨s, hjoin, rfl⟩
  | kept _ hcovers =>
    obtain ⟨b, hb, hxb⟩ := exists_floor_of_covers hcovers
    obtain rfl : some b = lo := Except.ok.inj (hb.symm.trans hlo)
    exact ⟨b, Position.join_of_le hxb, hb⟩
  | converged _ _ _ _ heq ihLower ihUpper =>
    rw [floorOf_some, floor_merged_eq_ok_iff] at hlo
    obtain ⟨l, u, hl, hu, hm⟩ := hlo
    obtain ⟨l', hl', hlfloor⟩ := ihLower hl
    obtain ⟨u', hu', hufloor⟩ := ihUpper hu
    obtain ⟨m', hm', hmeet⟩ := Position.raise_combine hm hl' hu'
    -- equal halves have one floor, which is then their meet
    have hlu : l' = u' := by
      rw [floor_eq_of_beq heq, hufloor] at hlfloor
      exact (Option.some.inj (Except.ok.inj hlfloor)).symm
    rw [hlu, Position.meet_of_le le_rfl] at hmeet
    rw [hlfloor, hlu, Except.ok.inj hmeet]
    exact ⟨m', hm', rfl⟩
  | pending _ _ _ ihLower ihUpper =>
    rw [floorOf_some, floor_merged_eq_ok_iff] at hlo
    obtain ⟨l, u, hl, hu, hm⟩ := hlo
    obtain ⟨l', hl', hlfloor⟩ := ihLower hl
    obtain ⟨u', hu', hufloor⟩ := ihUpper hu
    obtain ⟨m', hm', hmeet⟩ := Position.raise_combine hm hl' hu'
    exact ⟨m', hm', floor_merged_eq_ok_some_iff.2 ⟨l', u', hlfloor, hufloor, hmeet⟩⟩

/-! ### Moves and leaves -/

/-- A leaf that has the position already stays a leaf. -/
theorem mem_leaves (h : TreeMove x half r) (hp : some p ∈ leavesOf half) (hx : x ≤ p) :
    some p ∈ r.leaves := by
  induction h with
  | started => simp at hp
  | joined hjoin =>
    obtain rfl : p = _ := Option.some.inj (List.mem_singleton.1 hp)
    rw [Position.join_of_le hx] at hjoin
    rw [← Except.ok.inj hjoin]
    exact hp
  | kept => exact hp
  | converged _ _ _ _ heq ihLower ihUpper =>
    rw [leavesOf_some, mem_leaves_merged] at hp
    obtain hp | hp := hp
    · exact ihLower hp
    · rw [leaves_eq_of_beq heq]
      exact ihUpper hp
  | pending _ _ _ ihLower ihUpper =>
    rw [leavesOf_some, mem_leaves_merged] at hp
    exact mem_leaves_merged.2 (hp.imp ihLower ihUpper)

/-- A bound of the leaves and of the position stays a bound of the leaves. -/
theorem leaves_le {n : Position} (h : TreeMove x half r)
    (hle : ∀ p, some p ∈ leavesOf half → p ≤ n) (hx : x ≤ n) : ∀ p, some p ∈ r.leaves → p ≤ n := by
  induction h with
  | started =>
    intro p hp
    obtain rfl : p = x := Option.some.inj (List.mem_singleton.1 hp)
    exact hx
  | @joined q s hjoin =>
    intro p hp
    obtain rfl : p = s := Option.some.inj (List.mem_singleton.1 hp)
    exact (Position.join_le_iff hjoin).2 ⟨hle q (List.mem_singleton_self _), hx⟩
  | kept => exact hle
  | converged _ _ _ _ _ ihLower _ =>
    simp only [leavesOf_some, mem_leaves_merged, or_imp, forall_and] at hle
    exact ihLower hle.1
  | pending _ _ _ ihLower ihUpper =>
    simp only [leavesOf_some, mem_leaves_merged, or_imp, forall_and] at hle ⊢
    exact ⟨ihLower hle.1, ihUpper hle.2⟩

/-- **A leaf that has the position keeps a tree merged.** A half with such a leaf stays merged, or
it is that leaf and does not move, so its merge does not converge. -/
theorem wraps_or_eq (h : TreeMove x half r) (hp : some p ∈ leavesOf half) (hx : x ≤ p) :
    r.kind.wraps = true ∨ half = some r := by
  induction h with
  | started => simp at hp
  | @joined q s hjoin =>
    obtain rfl : p = q := Option.some.inj (List.mem_singleton.1 hp)
    rw [Position.join_of_le hx] at hjoin
    rw [Except.ok.inj hjoin]
    exact .inr rfl
  | kept hwraps => exact .inl hwraps
  | @converged lower upper _ _ l u _ _ hlower hupper heq ihLower ihUpper =>
    left
    rw [leavesOf_some, mem_leaves_merged] at hp
    obtain hp | hp := hp
    · refine (ihLower hp).resolve_right ?_
      intro hsame
      rw [hsame, bne_half_self] at hlower
      cases hlower
    · rw [kind_eq_of_beq heq]
      refine (ihUpper hp).resolve_right ?_
      intro hsame
      rw [hsame, bne_half_self] at hupper
      cases hupper
  | pending => exact .inl rfl

/-- **A position beyond all leaves completes the merges.** Every half moves, and every half moves to
the position. -/
theorem eq_plain (h : TreeMove x half r) (hlt : ∀ p, some p ∈ leavesOf half → p < x) :
    r = plain x ∧ (half != some r) = true := by
  induction h with
  | started => exact ⟨rfl, rfl⟩
  | @joined q s hjoin =>
    have hq := hlt q (List.mem_singleton_self _)
    rw [Position.join_of_ge hq.le] at hjoin
    obtain rfl : x = s := Except.ok.inj hjoin
    refine ⟨rfl, bne_half_plain.2 ?_⟩
    rintro ⟨⟩
    exact hq.ne rfl
  | @kept c _ hcovers =>
    obtain ⟨b, hb, hxb⟩ := exists_floor_of_covers hcovers
    obtain ⟨leaf, hleaf⟩ := exists_mem_leaves c
    obtain ⟨q, rfl, hxq⟩ := (le_floor_iff hb).1 hxb leaf hleaf
    exact absurd hxq (hlt q hleaf).not_ge
  | converged _ _ _ _ _ ihLower _ =>
    simp only [leavesOf_some, mem_leaves_merged, or_imp, forall_and] at hlt
    obtain ⟨rfl, -⟩ := ihLower hlt.1
    exact ⟨rfl, bne_half_plain.2 nofun⟩
  | pending _ _ hne ihLower ihUpper =>
    simp only [leavesOf_some, mem_leaves_merged, or_imp, forall_and] at hlt
    obtain ⟨rfl, hlower⟩ := ihLower hlt.1
    obtain ⟨rfl, hupper⟩ := ihUpper hlt.2
    rw [hlower, hupper, beq_iff.2 rfl] at hne
    cases hne

end TreeMove

end Cursor

end StreamProgress
