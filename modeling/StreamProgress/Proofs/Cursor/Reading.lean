import StreamProgress.Proofs.Cursor.Faults
import StreamProgress.Proofs.Cursor.ReadBack
import StreamProgress.Proofs.Json.Reading

/-!
# What is read is well formed

The written form can say that both halves of a merge are absent, in several ways: with `null`, by
leaving members or items out, at any depth. None of them is read. This is about every text, also
about texts that no cursor is written as.

Texts also differ in their brackets from what would be written for the cursor, since fields that are
not known are left out and an array may stand for an object. But a cursor has no more brackets inside
each other than the text that it was read from, and no flag is read. So what has been read can be
written and read again, and from then on neither the cursor nor its text changes.

All ways meet in `Cursor.ofReadHalves`, which puts two halves together that have been read. Around
it the reader takes members and items apart in turn, so what is carried along is that all that has
been read so far is well formed and nested one bracket less (`Cursor.Fits`). Text itself is read first,
as values, and then only the depth of the values matters.

## Main definitions

* `Cursor.Fits` — a well-formed bare cursor of at most so many brackets inside each other

## Main results

* `Cursor.readsFit_ofJson` — a value
* `Cursor.readsFit_parse`, `readsHalfFit_parseNullable` — a document
* `Cursor.parse_text_of_parse` — a document that is read, written and read again
* `Checkpoint.readsHalfFit_restore` — a checkpoint
-/

namespace StreamProgress

namespace Cursor

open Json (Mismatch)

variable {ε : Type} {c reset : Cursor} {lower upper : Option Cursor} {n : ℕ}

/-- A cursor without empty merges and with its flags at their defaults, whose written form has at
most `n` brackets inside each other. -/
structure Fits (n : ℕ) (c : Cursor) : Prop where
  wellFormed : c.wellFormed = true
  bare : c.bare = c
  depth_le : c.depth ≤ n

/-- A cursor without empty merges, if any is read. -/
def ReadsFormed (x : Except ε Cursor) : Prop :=
  x.Ends (fun _ => True) fun c => c.wellFormed = true

/-- An optional cursor without empty merges, if any is read. -/
def ReadsHalfFormed (x : Except ε (Option Cursor)) : Prop :=
  x.Ends (fun _ => True) fun half => halfWellFormed half = true

/-- A cursor that fits a nesting of `n`, if any is read. -/
def ReadsFit (n : ℕ) (x : Except ε Cursor) : Prop :=
  x.Ends (fun _ => True) (Fits n)

/-- An optional cursor that fits a nesting of `n`, if any is read. -/
def ReadsHalfFit (n : ℕ) (x : Except ε (Option Cursor)) : Prop :=
  x.Ends (fun _ => True) fun half => ∀ c ∈ half, Fits n c

/-! ### Cursors that fit -/

theorem depthOf_le_of_fits {half : Option Cursor} (h : ∀ c ∈ half, Fits n c) : depthOf half ≤ n := by
  cases half with
  | none => exact Nat.zero_le n
  | some c => exact (h c rfl).depth_le

theorem halfWellFormed_of_fits {half : Option Cursor} (h : ∀ c ∈ half, Fits n c) :
    halfWellFormed half = true :=
  halfWellFormed_iff.2 fun c hc => (h c hc).wellFormed

theorem bareHalf_of_fits {half : Option Cursor} (h : ∀ c ∈ half, Fits n c) : bareHalf half = half := by
  cases half with
  | none => rfl
  | some c => exact congrArg some (h c rfl).bare

/-- A cursor around others takes one bracket more. -/
theorem Fits.startReplay {current : Option Cursor} (hreset : Fits n reset)
    (hcurrent : ∀ c ∈ current, Fits n c) : Fits (n + 1) (startReplay reset current) where
  wellFormed := by
    rw [Cursor.startReplay, Cursor.wellFormed, hreset.wellFormed, halfWellFormed_of_fits hcurrent]
    rfl
  bare := by
    rw [Cursor.startReplay, Cursor.bare, hreset.bare, bareHalf_of_fits hcurrent]
  depth_le := by
    rw [Cursor.startReplay, depth, Nat.add_comm, Nat.add_le_add_iff_right]
    exact Nat.max_le.2 ⟨hreset.depth_le, depthOf_le_of_fits hcurrent⟩

/-- Two absent halves are refused here. -/
theorem readsFit_ofReadHalves (hlower : ∀ c ∈ lower, Fits n c) (hupper : ∀ c ∈ upper, Fits n c) :
    ReadsFit (n + 1) (ofReadHalves lower upper) := by
  have hpaired := ends_ofHalves (halfWellFormed_of_fits hlower) (halfWellFormed_of_fits hupper)
  rw [ofReadHalves]
  rw [ofHalves] at hpaired ⊢
  by_cases habsent : (lower.isNone && upper.isNone) = true
  · rw [if_pos habsent]
    trivial
  · rw [if_neg habsent] at hpaired ⊢
    constructor
    · exact hpaired
    · rw [pairHalves, bare, bareHalf_of_fits hlower, bareHalf_of_fits hupper]
    · rw [pairHalves, depth, Nat.add_comm, Nat.add_le_add_iff_right]
      exact Nat.max_le.2 ⟨depthOf_le_of_fits hlower, depthOf_le_of_fits hupper⟩

theorem readsHalfFit_unlessNull {read : Except Mismatch Cursor} (h : ReadsFit n read) (v : Json) :
    ReadsHalfFit n (unlessNull v read) := by
  cases hnull : v.isNull with
  | true =>
    rw [unlessNull.eq_def, hnull]
    rintro _ ⟨⟩
  | false =>
    rw [unlessNull.eq_def, hnull]
    cases read with
    | error e => trivial
    | ok c =>
      rintro _ ⟨⟩
      exact h

/-! ### Fields of plain cursors -/

/-- Partition offsets stand in a bracket of their own. -/
theorem depth_pos_of_offsetsOfJson {v : Json} {offsets : Offsets} (h : offsetsOfJson v = .ok offsets) :
    1 ≤ v.depth := by
  cases v with
  | object members => exact Nat.le_add_right 1 _
  | null => cases h
  | bool b => cases h
  | number n => cases h
  | string s => cases h
  | array items => cases h

/-- A field that has been read stands among the members. -/
theorem ends_soleField {α : Type} (name : String) (ofJson : Json → Except Mismatch α)
    (found : Option α) (members : List (String × Json)) :
    (soleField name ofJson found members).Ends (fun _ => True) fun a =>
      found = some a ∨ ∃ m ∈ members, ofJson m.2 = .ok a := by
  induction members generalizing found with
  | nil =>
    cases found with
    | none => trivial
    | some a => exact .inl rfl
  | cons m members ih =>
    obtain ⟨other, v⟩ := m
    unfold soleField
    split
    · cases found with
      | some a => trivial
      | none =>
        cases hread : ofJson v with
        | error e => trivial
        | ok a =>
          refine (ih (some a)).mono (fun _ => id) ?_
          rintro b (h | ⟨m, hm, h⟩)
          · obtain rfl := Option.some.inj h
            exact .inr ⟨_, .head _, hread⟩
          · exact .inr ⟨m, .tail _ hm, h⟩
    · refine (ih found).mono (fun _ => id) ?_
      rintro _ (h | ⟨m, hm, h⟩)
      · exact .inl h
      · exact .inr ⟨m, .tail _ hm, h⟩

/-- An item that has been read is the first one. -/
theorem ends_soleItem {α : Type} (shape : String) (ofJson : Json → Except Mismatch α)
    (items : List Json) :
    (soleItem shape ofJson items).Ends (fun _ => True) fun a => ∃ v ∈ items, ofJson v = .ok a := by
  cases items with
  | nil => trivial
  | cons v items =>
    rw [soleItem]
    cases hread : ofJson v with
    | error e => trivial
    | ok a =>
      dsimp only
      split
      · exact ⟨v, .head _, hread⟩
      · trivial

theorem fits_sequence (index : UInt64) (n : ℕ) : Fits (n + 1) (sequence index) :=
  ⟨rfl, rfl, Nat.le_add_left 1 n⟩

theorem fits_partitions {v : Json} {offsets : Offsets} (h : offsetsOfJson v = .ok offsets)
    (hv : v.depth ≤ n) : Fits (n + 1) (partitions offsets) :=
  ⟨rfl, rfl, Nat.succ_le_succ ((depth_pos_of_offsetsOfJson h).trans hv)⟩

/-! ### Members and items -/

/-- A cursor from two fields is as its fields make it, and each of them stands among the members. -/
theorem ends_twoFields {α β : Type} {first second : String} {readFirst : Json → Except Mismatch α}
    {readSecond : Json → Except Mismatch β} {finish : Option α → Option β → Except Mismatch Cursor}
    {P : α → Prop} {Q : β → Prop} {R : Cursor → Prop} {members : List (String × Json)}
    (hfirst : ∀ m ∈ members, (readFirst m.2).Ends (fun _ => True) P)
    (hsecond : ∀ m ∈ members, (readSecond m.2).Ends (fun _ => True) Q)
    (hfinish : ∀ a b, (∀ x ∈ a, P x) → (∀ y ∈ b, Q y) → (finish a b).Ends (fun _ => True) R)
    {a : Option α} {b : Option β} (ha : ∀ x ∈ a, P x) (hb : ∀ y ∈ b, Q y) :
    (twoFields first second readFirst readSecond finish a b members).Ends (fun _ => True) R := by
  induction members generalizing a b with
  | nil => exact hfinish a b ha hb
  | cons m members ih =>
    obtain ⟨name, v⟩ := m
    obtain ⟨hv, hfirst⟩ := List.forall_mem_cons.1 hfirst
    obtain ⟨hw, hsecond⟩ := List.forall_mem_cons.1 hsecond
    rw [twoFields]
    split
    · split
      · trivial
      · cases hread : readFirst v with
        | error e => trivial
        | ok x =>
          refine ih hfirst hsecond ?_ hb
          rintro _ ⟨⟩
          exact hv.of_eq_ok hread
    · split
      · split
        · trivial
        · cases hread : readSecond v with
          | error e => trivial
          | ok y =>
            refine ih hfirst hsecond ha ?_
            rintro _ ⟨⟩
            exact hw.of_eq_ok hread
      · exact ih hfirst hsecond ha hb

/-- A field that was left out is absent. -/
theorem fits_getD {met : Option (Option Cursor)} (h : ∀ half ∈ met, ∀ c ∈ half, Fits n c) :
    ∀ c ∈ met.getD none, Fits n c := by
  cases met with
  | none => rintro _ ⟨⟩
  | some half => exact h half rfl

theorem readsFit_replayOfMembers {members : List (String × Json)}
    (ih : ∀ m ∈ members, ReadsFit n (ofJson m.2)) :
    ReadsFit (n + 1) (replayOfMembers none none members) := by
  rw [replayOfMembers_eq]
  apply ends_twoFields (P := Fits n) (Q := fun half => ∀ c ∈ half, Fits n c)
  · exact ih
  · exact fun m hm => readsHalfFit_unlessNull (ih m hm) m.2
  · intro reset current hreset hcurrent
    cases reset with
    | none => trivial
    | some reset => exact (hreset reset rfl).startReplay (fits_getD hcurrent)
  · rintro _ ⟨⟩
  · rintro _ ⟨⟩

theorem readsFit_mergedOfMembers {members : List (String × Json)}
    (ih : ∀ m ∈ members, ReadsFit n (ofJson m.2)) :
    ReadsFit (n + 1) (mergedOfMembers none none members) := by
  rw [mergedOfMembers_eq]
  apply ends_twoFields (P := fun half => ∀ c ∈ half, Fits n c) (Q := fun half => ∀ c ∈ half, Fits n c)
  · exact fun m hm => readsHalfFit_unlessNull (ih m hm) m.2
  · exact fun m hm => readsHalfFit_unlessNull (ih m hm) m.2
  · intro lower upper hlower hupper
    exact readsFit_ofReadHalves (fits_getD hlower) (fits_getD hupper)
  · rintro _ ⟨⟩
  · rintro _ ⟨⟩

theorem readsFit_replayOfItems {items : List Json} (ih : ∀ v ∈ items, ReadsFit n (ofJson v)) :
    ReadsFit (n + 1) (replayOfItems items) := by
  cases items with
  | nil => trivial
  | cons v items =>
    obtain ⟨hv, hitems⟩ := List.forall_mem_cons.1 ih
    cases items with
    | nil => exact Except.Ends.bind hv fun reset hreset => hreset.startReplay nofun
    | cons w items =>
      rw [replayOfItems]
      refine Except.Ends.bind hv fun reset hreset => ?_
      refine Except.Ends.bind (readsHalfFit_unlessNull (hitems w (.head _)) w) ?_
      intro current hcurrent
      split
      · exact hreset.startReplay hcurrent
      · trivial

theorem readsFit_mergedOfItems {items : List Json} (ih : ∀ v ∈ items, ReadsFit n (ofJson v)) :
    ReadsFit (n + 1) (mergedOfItems items) := by
  cases items with
  | nil => trivial
  | cons v items =>
    obtain ⟨hv, hitems⟩ := List.forall_mem_cons.1 ih
    have hlower := readsHalfFit_unlessNull hv v
    cases items with
    | nil => exact Except.Ends.bind hlower fun lower hl => readsFit_ofReadHalves hl nofun
    | cons w items =>
      rw [mergedOfItems]
      refine Except.Ends.bind hlower fun lower hl => ?_
      refine Except.Ends.bind (readsHalfFit_unlessNull (hitems w (.head _)) w) ?_
      intro upper hu
      split
      · exact readsFit_ofReadHalves hl hu
      · trivial

/-! ### Values -/

theorem readsFit_ofMembers {members : List (String × Json)} (hdepth : ∀ m ∈ members, m.2.depth ≤ n)
    (ih : ∀ m ∈ members, ReadsFit n (ofJson m.2)) (kind : Kind) :
    ReadsFit (n + 1) (ofMembers members kind) := by
  rw [ofMembers]
  cases kind with
  | sequence =>
    refine (Except.ends_true _).bind fun index _ => ?_
    exact fits_sequence index n
  | partitionOffsets =>
    refine (ends_soleField "offsets" offsetsOfJson none members).bind ?_
    rintro offsets (h | ⟨m, hm, h⟩)
    · cases h
    · exact fits_partitions h (hdepth m hm)
  | replay => exact readsFit_replayOfMembers ih
  | merged => exact readsFit_mergedOfMembers ih

theorem readsFit_ofItems {items : List Json} (hdepth : ∀ v ∈ items, v.depth ≤ n)
    (ih : ∀ v ∈ items, ReadsFit n (ofJson v)) (kind : Kind) :
    ReadsFit (n + 1) (ofItems items kind) := by
  rw [ofItems]
  cases kind with
  | sequence =>
    refine (Except.ends_true _).bind fun index _ => ?_
    exact fits_sequence index n
  | partitionOffsets =>
    refine (ends_soleItem _ offsetsOfJson items).bind ?_
    rintro offsets ⟨v, hv, h⟩
    exact fits_partitions h (hdepth v hv)
  | replay => exact readsFit_replayOfItems ih
  | merged => exact readsFit_mergedOfItems ih

/-- **A value that is read as a cursor is nested as deep as the cursor,** and there is no empty merge
in the cursor. -/
theorem readsFit_ofJson {v : Json} (hv : v.depth ≤ n) : ReadsFit n (ofJson v) := by
  induction v generalizing n with
  | null => trivial
  | bool b => trivial
  | number n => trivial
  | string s => trivial
  | array items ih =>
    cases items with
    | nil => trivial
    | cons v items =>
      rw [Json.depth, Json.itemsDepth] at hv
      obtain ⟨n, rfl⟩ : ∃ m, n = m + 1 := ⟨n - 1, by omega⟩
      have hitems := Json.itemsDepth_le_iff.1 (show Json.itemsDepth items ≤ n by omega)
      rw [ofJson]
      cases Kind.vocabulary.tagOfJson v with
      | error e => trivial
      | ok kind =>
        exact readsFit_ofItems hitems (fun w hw => ih w (.tail _ hw) (hitems w hw)) kind
  | object members ih =>
    rw [Json.depth] at hv
    obtain ⟨n, rfl⟩ : ∃ m, n = m + 1 := ⟨n - 1, by omega⟩
    have hmembers := Json.membersDepth_le_iff.1 (show Json.membersDepth members ≤ n by omega)
    rw [ofJson]
    cases tagAmong none members with
    | error e => trivial
    | ok kind => exact readsFit_ofMembers hmembers (fun m hm => ih m hm (hmembers m hm)) kind

/-! ### Text -/

/-- The fields that are kept while a bracket is read are nested within it. -/
theorem keeps_draftMember (room nesting : ℕ) (name : String) :
    Json.Keeps (fun draft : Draft (String × Json) => ∀ m ∈ draft.fields, m.2.depth ≤ nesting)
      fun draft => draftMember room nesting draft name := by
  intro draft hdraft s
  dsimp only [draftMember]
  split
  · split
    · trivial
    · exact (Except.ends_true _).bind fun _ _ => hdraft
  · exact ((Json.yields_readValue room nesting).pushMember name _ hdraft s).bind fun _ hp => hp

theorem keeps_draftItem (room nesting : ℕ) :
    Json.Keeps (fun draft : Draft Json => ∀ v ∈ draft.fields, v.depth ≤ nesting)
      (draftItem room nesting) := by
  intro draft hdraft s
  rw [draftItem]
  split
  · exact (Except.ends_true _).bind fun _ _ => hdraft
  · exact ((Json.yields_readValue room nesting).pushItem _ hdraft s).bind fun _ hp => hp

/-- The bracket of a cursor, whatever has been kept of it. -/
theorem yields_finish {β : Type} {decode : List β → Kind → Except Mismatch Cursor} {draft : Draft β}
    (h : ∀ kind, ReadsFit n (decode draft.fields.reverse kind)) :
    Json.Yields (Fits n) (finish draft decode) := by
  intro s
  rw [finish]
  cases draft.kind with
  | none => trivial
  | some kind =>
    have hkind := h kind
    dsimp only
    cases hdecode : decode draft.fields.reverse kind with
    | error e => trivial
    | ok c => exact hkind.of_eq_ok hdecode

theorem yields_reader (room nesting : ℕ) : Json.Yields (Fits nesting) (reader room nesting) := by
  intro s
  rw [reader]
  split
  · cases nesting with
    | zero => trivial
    | succ nesting =>
      refine (Json.Keeps.readMembers (keeps_draftMember room nesting) room ⟨none, []⟩
        (List.forall_mem_nil _) _).bind fun p hp => yields_finish (fun kind => ?_) p.2
      have hfields : ∀ m ∈ p.1.fields.reverse, m.2.depth ≤ nesting :=
        fun m hm => hp m (List.mem_reverse.1 hm)
      exact readsFit_ofMembers hfields (fun m hm => readsFit_ofJson (hfields m hm)) kind
  · cases nesting with
    | zero => trivial
    | succ nesting =>
      refine ((keeps_draftItem room nesting).readItems room ⟨none, []⟩
        (List.forall_mem_nil _) _).bind fun p hp => yields_finish (fun kind => ?_) p.2
      have hfields : ∀ v ∈ p.1.fields.reverse, v.depth ≤ nesting :=
        fun v hv => hp v (List.mem_reverse.1 hv)
      exact readsFit_ofItems hfields (fun v hv => readsFit_ofJson (hfields v hv)) kind
  · exact (Except.ends_true _).bind fun _ _ => trivial

/-- **A document that is read as a cursor fits the nesting of documents.** -/
theorem readsFit_parse (text : String) : ReadsFit Json.maxNesting (parse text) :=
  (yields_reader _ _).readDocument _

theorem readsHalfFit_parseNullable (text : String) :
    ReadsHalfFit Json.maxNesting (parseNullable text) :=
  (yields_reader _ _).readNullable.readDocument _

/-- **What has been read can be written and read again, and comes back unchanged,** flags included,
however the first text was written. The text that it is written as is that of every equal cursor, and
its brackets are within the nesting of documents. -/
theorem parse_text_of_parse {text : String} (h : parse text = .ok c) :
    parse c.text = .ok c ∧ (∀ d : Cursor, (d == c) = true → d.text = c.text) ∧
      c.toJson.depth ≤ Json.maxNesting := by
  have hfits := (readsFit_parse text).of_eq_ok h
  refine ⟨?_, ?_, ?_⟩
  · rw [parse_text, if_neg (Nat.not_lt.2 hfits.depth_le), if_pos hfits.wellFormed, hfits.bare]
  · intro d hd
    rw [Cursor.text, ← toJson_bare d, beq_iff.1 hd, toJson_bare]
    rfl
  · rw [depth_toJson]
    exact hfits.depth_le

/-- A document with its tags behind the fields, with other members between them and without its
absent halves. -/
theorem parse_text_of_parse_tagsLast :
    let c := merged (some (replay (sequence 3) none true)) none false false
    parse tagsLastText = .ok c ∧ parse c.text = .ok c ∧
      (∀ d : Cursor, (d == c) = true → d.text = c.text) ∧ c.toJson.depth ≤ Json.maxNesting := by
  intro c
  have h : parse tagsLastText = .ok c := by
    rw [parse_of_mem_documents laidOut_tagsLast tagsLastText_mem_documents]
    rfl
  exact ⟨h, parse_text_of_parse h⟩

/-- **No document is read as a cursor with an empty merge in it.** -/
theorem readsFormed_parse (text : String) : ReadsFormed (parse text) :=
  (readsFit_parse text).mono (fun _ => id) fun _ => Fits.wellFormed

end Cursor

namespace Checkpoint

/-- **A checkpoint that is restored to a cursor fits the nesting of documents,** whoever wrote it. -/
theorem readsHalfFit_restore (verify : Bool) (r : Checkpoint) :
    Cursor.ReadsHalfFit Json.maxNesting (r.restore verify) := by
  rw [restore]
  split
  · trivial
  · have hparse := Cursor.readsHalfFit_parseNullable r.payload
    rw [decode]
    cases hread : Cursor.parseNullable r.payload with
    | error fault => trivial
    | ok half =>
      have hhalf := hparse.of_eq_ok hread
      dsimp only
      split
      · exact hhalf
      · trivial

/-- **No checkpoint is restored to a cursor with an empty merge in it.** -/
theorem readsHalfFormed_restore (verify : Bool) (r : Checkpoint) :
    Cursor.ReadsHalfFormed (r.restore verify) :=
  (readsHalfFit_restore verify r).mono (fun _ => id) fun _ => Cursor.halfWellFormed_of_fits

end Checkpoint

end StreamProgress
