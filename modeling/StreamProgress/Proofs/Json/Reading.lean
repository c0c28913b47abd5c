import StreamProgress.Proofs.Except
import StreamProgress.Proofs.Json.ReadBack

/-!
# What a reader comes to

`Json.readsBack` is about the texts of a value. Here nothing is known of the text, so the
statements are about what a reader has read if it has read anything (`Json.Yields`). A bracket is read
by a step that updates a state, and what each step keeps of the state the bracket keeps.

## Main definitions

* `Json.Yields` — a property of everything that a reader can read
* `Json.Keeps` — a property of the state that a step keeps

## Main results

* `Json.Keeps.readItems`, `Json.Keeps.readMembers` — what the brackets keep
* `Json.yields_readValue` — no value is nested deeper than its reader may go
-/

namespace StreamProgress

namespace Json

variable {σ α : Type} {close : Char} {I : σ → Prop} {P : α → Prop} {read : Reader α}
  {items : List Json} {members : List (String × Json)} {n : Nat}

/-- What a reader has read, if it has read anything, is `P`. -/
def Yields (P : α → Prop) (read : Reader α) : Prop :=
  ∀ s, (read s).Ends (fun _ => True) fun p => P p.1

/-- A step goes from states that are `I` to such states only. -/
def Keeps (I : σ → Prop) (step : σ → Reader σ) : Prop :=
  ∀ state, I state → Yields I (step state)

/-! ### The depth of a bracket -/

theorem itemsDepth_le_iff : itemsDepth items ≤ n ↔ ∀ v ∈ items, v.depth ≤ n := by
  induction items with
  | nil => simp [itemsDepth]
  | cons v items ih => rw [itemsDepth, Nat.max_le, ih, List.forall_mem_cons]

theorem membersDepth_le_iff : membersDepth members ≤ n ↔ ∀ m ∈ members, m.2.depth ≤ n := by
  induction members with
  | nil => simp [membersDepth]
  | cons m members ih => rw [membersDepth, Nat.max_le, ih, List.forall_mem_cons]

/-! ### Entries of a bracket -/

theorem Keeps.foldEntries {step : σ → Reader σ} (h : Keeps I step) (room : Nat) :
    Keeps I (foldEntries close step room) := by
  induction room with
  | zero => exact fun _ _ _ => trivial
  | succ room ih =>
    intro state hstate s
    rw [Json.foldEntries]
    cases hread : step state s with
    | error fault => trivial
    | ok p =>
      have hnext := (h state hstate s).of_eq_ok hread
      dsimp only
      split
      · trivial
      · split
        · exact hnext
        · split
          · exact ih p.1 hnext _
          · trivial

theorem Keeps.readEntries {step : σ → Reader σ} (h : Keeps I step) (room : Nat) :
    Keeps I (readEntries close step room) := by
  intro state hstate s
  rw [Json.readEntries]
  split
  · trivial
  · split
    · exact hstate
    · exact h.foldEntries room state hstate _

/-- **The items of an array keep what each of them keeps.** -/
theorem Keeps.readItems {step : σ → Reader σ} (h : Keeps I step) (room : Nat) :
    Keeps I (readItems step room) :=
  h.readEntries room

/-- **The members of an object keep what each of them keeps,** whatever its name is. -/
theorem Keeps.readMembers {step : σ → String → Reader σ}
    (h : ∀ name, Keeps I fun state => step state name) (room : Nat) :
    Keeps I (readMembers step room) := by
  refine Keeps.readEntries (fun state hstate s => ?_) room
  rw [namedStep]
  split
  · trivial
  · split
    · trivial
    · exact h _ state hstate _
  · trivial

theorem Yields.afterColon (h : Yields P read) : Yields P (afterColon read) := by
  intro s
  rw [Json.afterColon]
  split
  · trivial
  · exact h _
  · trivial

theorem Yields.pushItem (h : Yields P read) :
    Keeps (fun as => ∀ a ∈ as, P a) (pushItem read) := by
  intro as has s
  refine (h s).bind fun p hp => ?_
  exact List.forall_mem_cons.2 ⟨hp, has⟩

theorem Yields.pushMember (h : Yields P read) (name : String) :
    Keeps (fun as => ∀ a ∈ as, P a.2) fun members => pushMember read members name := by
  intro as has s
  refine (h.afterColon s).bind fun p hp => ?_
  exact List.forall_mem_cons.2 ⟨hp, has⟩

/-! ### Values -/

/-- A value without brackets has none inside. -/
theorem yields_scanScalar : Yields (fun v => v.depth = 0) scanScalar := by
  intro s
  unfold scanScalar
  split
  · trivial
  · exact (Except.ends_true _).bind fun _ _ => rfl
  · exact (Except.ends_true _).bind fun _ _ => rfl
  · exact (Except.ends_true _).bind fun _ _ => rfl
  · exact (Except.ends_true _).bind fun _ _ => rfl
  · split
    · exact (Except.ends_true _).bind fun _ _ => rfl
    · trivial

/-- **No value is nested deeper than its reader may go.** -/
theorem yields_readValue (room nesting : Nat) :
    Yields (fun v => v.depth ≤ nesting) (readValue room nesting) := by
  have hscalar (nesting : Nat) (s : List Char) :
      (scanScalar s).Ends (fun _ => True) fun p => p.1.depth ≤ nesting :=
    (yields_scanScalar s).mono (fun _ => id) fun p hp => hp ▸ Nat.zero_le nesting
  induction nesting with
  | zero =>
    intro s
    rw [readValue]
    split
    · trivial
    · trivial
    · exact hscalar 0 _
  | succ nesting ih =>
    intro s
    rw [readValue]
    split
    · refine (ih.pushItem.readItems room [] (List.forall_mem_nil _) _).bind fun p hp => ?_
      show 1 + itemsDepth p.1.reverse ≤ nesting + 1
      rw [Nat.add_comm, Nat.add_le_add_iff_right, itemsDepth_le_iff]
      exact fun v hv => hp v (List.mem_reverse.1 hv)
    · refine (Keeps.readMembers ih.pushMember room [] (List.forall_mem_nil _) _).bind fun p hp => ?_
      show 1 + membersDepth p.1.reverse ≤ nesting + 1
      rw [Nat.add_comm, Nat.add_le_add_iff_right, membersDepth_le_iff]
      exact fun m hm => hp m (List.mem_reverse.1 hm)
    · exact hscalar (nesting + 1) _

/-! ### Documents -/

/-- A whole document is what stands at its front. -/
theorem Yields.readDocument (h : Yields P read) (s : List Char) :
    (readDocument read s).Ends (fun _ => True) P := by
  rw [Json.readDocument]
  cases hread : read s with
  | error e => trivial
  | ok p =>
    have hp := (h s).of_eq_ok hread
    dsimp only
    split
    · exact hp
    · trivial

theorem Yields.readNullable (h : Yields P read) :
    Yields (fun o => ∀ a ∈ o, P a) (readNullable read) := by
  intro s
  rw [Json.readNullable]
  split
  · refine (Except.ends_true _).bind fun rest _ => ?_
    rintro _ ⟨⟩
  · refine (h _).bind fun p hp => ?_
    rintro _ ⟨⟩
    exact hp

end Json

end StreamProgress
