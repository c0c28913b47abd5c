import StreamProgress.Proofs.Cursor.Flags
import StreamProgress.Proofs.Json.ReadBack
import StreamProgress.Proofs.NameMap

/-!
# The layouts of a cursor

The object of a cursor may be laid out in many ways: the members in any order with the tag anywhere
among them, members that are no fields of the kind between them, and an absent half either as `null`
or not at all. `Cursor.LaidOut` is this relation between a cursor and a value, at every depth. It says
nothing about text, which is laid out in many ways itself (`Json.documents`).

Which layout is chosen makes no difference to what is read (`Cursor.parse_of_mem_documents`).

## Fields by name

The reader takes the members of a bracket one by one, remembers what it has met and refuses a second
member for one field. What it finds in the end depends only on the members of each name
(`Cursor.called`), and these are the same in every layout. `Cursor.twoFields` is the loop for the two
kinds of cursor that wrap others. Only where two fields are wrong in different ways would the order
matter, and the fields of a cursor can be wrong in one way only, by an empty merge.

## Main definitions

* `Cursor.LaidOut` — the values that a cursor may be laid out as

## Main results

* `Cursor.ofJson_of_laidOut` — from a value
* `Cursor.parse_of_mem_documents` — from any text of a value
* `Cursor.parse_of_laidOut` — the layout does not matter
-/

namespace StreamProgress

/-- The names of the fields of a kind, in their order. -/
def Kind.fieldNames : Kind → List String
  | .sequence => ["index"]
  | .partitionOffsets => ["offsets"]
  | .replay => ["token_at_reset", "current"]
  | .merged => ["lower_segment", "upper_segment"]

namespace Cursor

open Json (Mismatch Fault)

/-! ### Layouts -/

/-- Whether a value is an object with the tag of a kind, these fields and any other members that are
no fields of the kind, in any order. -/
def Arranged (kind : Kind) (fields : List (String × Json)) (v : Json) : Prop :=
  ∃ members others, v = .object members ∧ members.Perm (tag kind :: (fields ++ others)) ∧
    ∀ m ∈ others, m.1 ≠ "type" ∧ m.1 ∉ kind.fieldNames

mutual

/-- Whether a cursor may be laid out as a value. -/
def LaidOut : Cursor → Json → Prop
  | .plain (.sequence index), v => Arranged .sequence [("index", .count index)] v
  | .plain (.partitions offsets), v =>
    Arranged .partitionOffsets [("offsets", offsetsToJson offsets)] v
  | .replay reset current _, v => ∃ w half, LaidOut reset w ∧ HalfLaidOut "current" current half ∧
      Arranged .replay (("token_at_reset", w) :: half) v
  | .merged lower upper _ _, v => ∃ l u, HalfLaidOut "lower_segment" lower l ∧
      HalfLaidOut "upper_segment" upper u ∧ Arranged .merged (l ++ u) v

/-- Whether an optional cursor may be laid out as these members: as one member, or as none if it is
absent. -/
def HalfLaidOut (name : String) : Option Cursor → List (String × Json) → Prop
  | none, members => members = [] ∨ members = [(name, .null)]
  | some c, members => ∃ v, LaidOut c v ∧ members = [(name, v)]

end

variable {c : Cursor} {half : Option Cursor} {kind : Kind} {name : String} {v : Json}
  {fields members : List (String × Json)} {room nesting : Nat} {s rest : List Char}

/-! ### Members of a name -/

/-- The members of a name, in their order. -/
def called (name : String) (members : List (String × Json)) : List (String × Json) :=
  members.filter fun m => m.1 = name

theorem called_cons_self (name : String) (v : Json) (members : List (String × Json)) :
    called name ((name, v) :: members) = (name, v) :: called name members := by
  simp [called]

theorem called_cons_of_ne {other : String} (h : other ≠ name) (v : Json)
    (members : List (String × Json)) :
    called name ((other, v) :: members) = called name members := by
  simp [called, h]

theorem called_eq_self (h : ∀ m ∈ members, m.1 = name) : called name members = members :=
  List.filter_eq_self.2 fun m hm => decide_eq_true (h m hm)

theorem called_eq_nil (h : ∀ m ∈ members, m.1 ≠ name) : called name members = [] :=
  List.filter_eq_nil_iff.2 fun m hm => by simpa using h m hm

theorem called_append (name : String) (members others : List (String × Json)) :
    called name (members ++ others) = called name members ++ called name others :=
  List.filter_append ..

/-- No field has the name of the tag. -/
theorem ne_type_of_mem_fieldNames (h : name ∈ kind.fieldNames) : name ≠ "type" := by
  rintro rfl
  revert h
  cases kind <;> decide

/-- The tag is found among the members. -/
theorem Arranged.called_type (h : Arranged kind fields (.object members))
    (hfields : ∀ m ∈ fields, m.1 ∈ kind.fieldNames) : called "type" members = [tag kind] := by
  obtain ⟨_, others, hv, hperm, hothers⟩ := h
  obtain rfl := Json.object.inj hv
  have hcalled := hperm.filter fun m => m.1 = "type"
  refine List.perm_singleton.1 (hcalled.trans (List.Perm.of_eq ?_))
  show called "type" (tag kind :: (fields ++ others)) = [tag kind]
  rw [tag, called_cons_self, called_append,
    called_eq_nil fun m hm => ne_type_of_mem_fieldNames (hfields m hm),
    called_eq_nil fun m hm => (hothers m hm).1]
  rfl

/-- A field is found among the members as often as it was put there. -/
theorem Arranged.called_field (h : Arranged kind fields (.object members))
    (hname : name ∈ kind.fieldNames) (hlength : (called name fields).length ≤ 1) :
    called name members = called name fields := by
  obtain ⟨_, others, hv, hperm, hothers⟩ := h
  obtain rfl := Json.object.inj hv
  have hne : ∀ m ∈ others, m.1 ≠ name := by
    rintro m hm rfl
    exact (hothers m hm).2 hname
  have hcalled : (called name members).Perm (called name fields) := by
    refine (hperm.filter fun m => m.1 = name).trans (List.Perm.of_eq ?_)
    show called name (tag kind :: (fields ++ others)) = called name fields
    rw [tag, called_cons_of_ne (ne_type_of_mem_fieldNames hname).symm, called_append,
      called_eq_nil hne, List.append_nil]
  revert hcalled hlength
  cases called name fields with
  | nil => exact fun _ h => h.eq_nil
  | cons m fields =>
    intro hlength h
    obtain rfl := List.eq_nil_of_length_eq_zero (Nat.le_zero.1 (Nat.le_of_succ_le_succ hlength))
    exact List.perm_singleton.1 h

/-! ### One field -/

section

variable {α β : Type} {read : Json → Except Mismatch α}

theorem soleField_of_met (h : called name members = []) (a : α) :
    soleField name read (some a) members = .ok a := by
  induction members with
  | nil => rfl
  | cons m members ih =>
    obtain ⟨other, v⟩ := m
    have hne : other ≠ name := by
      rintro rfl
      rw [called_cons_self] at h
      cases h
    rw [called_cons_of_ne hne] at h
    rw [soleField, if_neg hne, ih h]

/-- The one member of a name is read. -/
theorem soleField_eq (h : called name members = [(name, v)]) :
    soleField name read none members = read v := by
  induction members with
  | nil => cases h
  | cons m members ih =>
    obtain ⟨other, w⟩ := m
    rw [soleField]
    by_cases hname : other = name
    · subst hname
      rw [called_cons_self] at h
      obtain ⟨hm, hrest⟩ := List.cons.inj h
      obtain ⟨-, rfl⟩ := Prod.mk.inj hm
      rw [if_pos rfl]
      cases read w with
      | error e => rfl
      | ok a => exact soleField_of_met hrest a
    · rw [called_cons_of_ne hname] at h
      rw [if_neg hname, ih h]

/-- The tag is a field like any other to the reader of values. -/
theorem tagAmong_eq (found : Option Kind) (members : List (String × Json)) :
    tagAmong found members = soleField "type" Kind.vocabulary.tagOfJson found members := by
  induction members generalizing found with
  | nil => cases found <;> rfl
  | cons m members ih =>
    obtain ⟨name, v⟩ := m
    rw [tagAmong.eq_def, soleField.eq_def]
    simp only [ih]
    cases found <;> cases Kind.vocabulary.tagOfJson v <;> rfl

/-! ### Two fields -/

/-- What a field is found to be: what it was read as already, or what its first member is read as,
or absent. -/
def fieldOf (read : Json → Except Mismatch α) :
    Option α → List (String × Json) → Except Mismatch (Option α)
  | some a, _ => .ok (some a)
  | none, [] => .ok none
  | none, m :: _ => (read m.2).map some

variable (first second : String) (readFirst : Json → Except Mismatch α)
  (readSecond : Json → Except Mismatch β) (finish : Option α → Option β → Except Mismatch Cursor)

/-- A cursor from the members of its two fields, given the fields that have been met. -/
def twoFields (a : Option α) (b : Option β) : List (String × Json) → Except Mismatch Cursor
  | [] => finish a b
  | (name, v) :: members =>
    if name = first then
      if a.isSome then .error (.duplicateField name)
      else
        match readFirst v with
        | .error e => .error e
        | .ok a => twoFields (some a) b members
    else if name = second then
      if b.isSome then .error (.duplicateField name)
      else
        match readSecond v with
        | .error e => .error e
        | .ok b => twoFields a (some b) members
    else twoFields a b members

variable {first second readFirst readSecond finish} {a : Option α} {b : Option β}

/-- The loop gives what its two fields are found to be, whatever the order in which they stand. Each
is there once at most, and if both are wrong, they are wrong in the same way. -/
theorem twoFields_eq (hne : first ≠ second)
    (ha : a.toList.length + (called first members).length ≤ 1)
    (hb : b.toList.length + (called second members).length ≤ 1)
    (hfault : ∀ e e', fieldOf readFirst a (called first members) = .error e →
      fieldOf readSecond b (called second members) = .error e' → e = e') :
    twoFields first second readFirst readSecond finish a b members =
      (do
        let a ← fieldOf readFirst a (called first members)
        let b ← fieldOf readSecond b (called second members)
        finish a b) := by
  induction members generalizing a b with
  | nil => cases a <;> cases b <;> rfl
  | cons m members ih =>
    obtain ⟨name, v⟩ := m
    rw [twoFields]
    by_cases hfirst : name = first
    · subst hfirst
      rw [called_cons_of_ne hne] at hb hfault ⊢
      rw [called_cons_self] at ha hfault ⊢
      rw [if_pos rfl]
      cases a with
      | some a =>
        simp only [Option.toList_some, List.length_cons] at ha
        omega
      | none =>
        have hnil : called name members = [] := by simpa using ha
        have hrest (a : α) : twoFields name second readFirst readSecond finish (some a) b members =
            (fieldOf readSecond b (called second members) >>= finish (some a)) := by
          refine ih (by rw [hnil]; exact le_rfl) hb ?_
          rintro e e' ⟨⟩
        cases hread : readFirst v with
        | error e => simp [fieldOf, hread, Except.map]
        | ok a => simp [fieldOf, hread, Except.map, hrest]
    · rw [called_cons_of_ne hfirst] at ha hfault ⊢
      rw [if_neg hfirst]
      by_cases hsecond : name = second
      · subst hsecond
        rw [called_cons_self] at hb hfault ⊢
        rw [if_pos rfl]
        cases b with
        | some b =>
          simp only [Option.toList_some, List.length_cons] at hb
          omega
        | none =>
          have hnil : called name members = [] := by simpa using hb
          have hrest (b : β) : twoFields first name readFirst readSecond finish a (some b) members =
              (fieldOf readFirst a (called first members) >>= fun a => finish a (some b)) := by
            refine ih ha (by rw [hnil]; exact le_rfl) ?_
            rintro e e' - ⟨⟩
          cases hread : readSecond v with
          | error e' =>
            have hsecond : fieldOf readSecond none ((name, v) :: called name members) =
                .error e' := by
              rw [fieldOf, hread]
              rfl
            cases hfield : fieldOf readFirst a (called first members) with
            | error e => simp [hfault e e' hfield hsecond]
            | ok a => simp [hsecond]
          | ok b => simp [fieldOf, hread, Except.map, hrest]
      · rw [called_cons_of_ne hsecond] at hb hfault ⊢
        rw [if_neg hsecond]
        exact ih ha hb hfault

/-- Two fields that only an empty merge can make wrong, each if it is not well-formed. -/
theorem twoFields_of_ends {p q : Bool} {P : Option α → Prop} {Q : Option β → Prop}
    {result : Except Mismatch Cursor} (hne : first ≠ second)
    (hfirst : (fieldOf readFirst none (called first members)).Ends
      (fun e => e = .emptyMerge ∧ p = false) fun a => P a ∧ p = true)
    (hsecond : (fieldOf readSecond none (called second members)).Ends
      (fun e => e = .emptyMerge ∧ q = false) fun b => Q b ∧ q = true)
    (hfirstLength : (called first members).length ≤ 1)
    (hsecondLength : (called second members).length ≤ 1)
    (hfinish : ∀ a b, P a → Q b → finish a b = result) :
    twoFields first second readFirst readSecond finish none none members =
      if p && q then result else .error .emptyMerge := by
  rw [twoFields_eq hne (by simpa using hfirstLength) (by simpa using hsecondLength)
    fun e e' he he' => (hfirst.of_eq_error he).1.trans (hsecond.of_eq_error he').1.symm]
  cases ha : fieldOf readFirst none (called first members) with
  | error e =>
    obtain ⟨rfl, hp⟩ := hfirst.of_eq_error ha
    simp [hp]
  | ok a =>
    obtain ⟨hPa, hp⟩ := hfirst.of_eq_ok ha
    cases hb : fieldOf readSecond none (called second members) with
    | error e =>
      obtain ⟨rfl, hq⟩ := hsecond.of_eq_error hb
      simp [hp, hq]
    | ok b =>
      obtain ⟨hQb, hq⟩ := hsecond.of_eq_ok hb
      simp [hp, hq, hfinish a b hPa hQb]

end

theorem replayOfMembers_eq (reset : Option Cursor) (current : Option (Option Cursor))
    (members : List (String × Json)) :
    replayOfMembers reset current members =
      twoFields "token_at_reset" "current" ofJson (fun v => unlessNull v (ofJson v))
        (fun reset current => match reset with
          | none => .error (.missingField "token_at_reset")
          | some reset => .ok (startReplay reset (current.getD none))) reset current members := by
  induction members generalizing reset current with
  | nil => cases reset <;> rfl
  | cons m members ih =>
    obtain ⟨name, v⟩ := m
    rw [replayOfMembers, twoFields]
    simp only [ih]
    cases unlessNull v (ofJson v) <;> cases ofJson v <;> rfl

theorem mergedOfMembers_eq (lower upper : Option (Option Cursor)) (members : List (String × Json)) :
    mergedOfMembers lower upper members =
      twoFields "lower_segment" "upper_segment" (fun v => unlessNull v (ofJson v))
        (fun v => unlessNull v (ofJson v))
        (fun lower upper => ofReadHalves (lower.getD none) (upper.getD none)) lower upper
        members := by
  induction members generalizing lower upper with
  | nil => rfl
  | cons m members ih =>
    obtain ⟨name, v⟩ := m
    rw [mergedOfMembers, twoFields]
    simp only [ih]
    cases unlessNull v (ofJson v) <;> rfl

/-! ### From values -/

/-- Whether the fields of a cursor stand among members, each laid out as it may be. -/
def Holds : Cursor → List (String × Json) → Prop
  | .plain (.sequence index), members => called "index" members = [("index", .count index)]
  | .plain (.partitions offsets), members =>
    called "offsets" members = [("offsets", offsetsToJson offsets)]
  | .replay reset current _, members =>
    HalfLaidOut "token_at_reset" (some reset) (called "token_at_reset" members) ∧
      HalfLaidOut "current" current (called "current" members)
  | .merged lower upper _ _, members =>
    HalfLaidOut "lower_segment" lower (called "lower_segment" members) ∧
      HalfLaidOut "upper_segment" upper (called "upper_segment" members)

/-- Only the members of the fields matter. -/
theorem Holds.of_called {others : List (String × Json)} (h : Holds c members)
    (hcalled : ∀ name ∈ c.kind.fieldNames, called name others = called name members) :
    Holds c others := by
  cases c with
  | plain p =>
    cases p with
    | sequence index => exact (hcalled "index" (.head _)).trans h
    | partitions offsets => exact (hcalled "offsets" (.head _)).trans h
  | replay reset current replaying =>
    rw [Holds, hcalled "token_at_reset" (.head _), hcalled "current" (.tail _ (.head _))]
    exact h
  | merged lower upper lowerAdvanced upperAdvanced =>
    rw [Holds, hcalled "lower_segment" (.head _), hcalled "upper_segment" (.tail _ (.head _))]
    exact h

/-- A half is laid out as one member of its name at most. -/
theorem HalfLaidOut.names (h : HalfLaidOut name half fields) :
    (∀ m ∈ fields, m.1 = name) ∧ fields.length ≤ 1 := by
  cases half with
  | none => obtain rfl | rfl := h <;> simp
  | some c =>
    obtain ⟨v, -, rfl⟩ := h
    simp

/-- A laid out cursor is an object that holds the tag and the fields of the cursor. -/
theorem LaidOut.exists_members (h : LaidOut c v) :
    ∃ members, v = .object members ∧ called "type" members = [tag c.kind] ∧ Holds c members := by
  cases c with
  | plain p =>
    cases p with
    | sequence index =>
      have harranged : Arranged .sequence [("index", .count index)] v := h
      obtain ⟨members, _, rfl, -, -⟩ := h
      exact ⟨members, rfl, harranged.called_type (by simp [Kind.fieldNames]),
        harranged.called_field (.head _) le_rfl⟩
    | partitions offsets =>
      have harranged : Arranged .partitionOffsets [("offsets", offsetsToJson offsets)] v := h
      obtain ⟨members, _, rfl, -, -⟩ := h
      exact ⟨members, rfl, harranged.called_type (by simp [Kind.fieldNames]),
        harranged.called_field (.head _) le_rfl⟩
  | replay reset current replaying =>
    obtain ⟨w, fields, hreset, hcurrent, harranged⟩ := h
    obtain ⟨hnames, hlength⟩ := hcurrent.names
    have htoken : called "token_at_reset" (("token_at_reset", w) :: fields) =
        [("token_at_reset", w)] := by
      rw [called_cons_self, called_eq_nil fun m hm => by rw [hnames m hm]; decide]
    have hfield : called "current" (("token_at_reset", w) :: fields) = fields := by
      rw [called_cons_of_ne (by decide : "token_at_reset" ≠ "current"), called_eq_self hnames]
    obtain ⟨members, others, rfl, hperm, hothers⟩ := id harranged
    refine ⟨members, rfl, harranged.called_type ?_, ⟨w, hreset, ?_⟩, ?_⟩
    · rintro m (_ | ⟨_, hm⟩)
      · exact .head _
      · rw [hnames m hm]
        exact .tail _ (.head _)
    · rw [harranged.called_field (.head _) (by rw [htoken]; exact le_rfl), htoken]
    · rw [harranged.called_field (.tail _ (.head _)) (by rw [hfield]; exact hlength), hfield]
      exact hcurrent
  | merged lower upper lowerAdvanced upperAdvanced =>
    obtain ⟨l, u, hlower, hupper, harranged⟩ := h
    obtain ⟨hlnames, hllength⟩ := hlower.names
    obtain ⟨hunames, hulength⟩ := hupper.names
    have hl : called "lower_segment" (l ++ u) = l := by
      rw [called_append, called_eq_self hlnames,
        called_eq_nil fun m hm => by rw [hunames m hm]; decide, List.append_nil]
    have hu : called "upper_segment" (l ++ u) = u := by
      rw [called_append, called_eq_self hunames,
        called_eq_nil fun m hm => by rw [hlnames m hm]; decide, List.nil_append]
    obtain ⟨members, others, rfl, hperm, hothers⟩ := id harranged
    refine ⟨members, rfl, harranged.called_type ?_, ?_, ?_⟩
    · intro m hm
      rcases List.mem_append.1 hm with hm | hm
      · rw [hlnames m hm]
        exact .head _
      · rw [hunames m hm]
        exact .tail _ (.head _)
    · rw [harranged.called_field (.head _) (by rw [hl]; exact hllength), hl]
      exact hlower
    · rw [harranged.called_field (.tail _ (.head _)) (by rw [hu]; exact hulength), hu]
      exact hupper

theorem tagOfJson_name (kind : Kind) : Kind.vocabulary.tagOfJson (.string kind.name) = .ok kind :=
  Kind.find_name kind

/-- A nested cursor is read by its tag, wherever it stands. -/
theorem ofJson_object_eq (h : called "type" members = [tag kind]) :
    ofJson (.object members) = ofMembers members kind := by
  rw [ofJson, tagAmong_eq, soleField_eq h]
  simp only [tagOfJson_name]
  rfl

/-- What a cursor is read as: itself without its flags, unless there is an empty merge in it. -/
def reading (c : Cursor) : Except Mismatch Cursor :=
  if c.wellFormed then .ok c.bare else .error .emptyMerge

theorem ends_reading (c : Cursor) :
    c.reading.Ends (fun e => e = .emptyMerge ∧ c.wellFormed = false)
      fun d => d = c.bare ∧ c.wellFormed = true := by
  rw [reading]
  cases hformed : c.wellFormed with
  | false => exact ⟨rfl, rfl⟩
  | true => exact ⟨rfl, rfl⟩

theorem unlessNull_object (members : List (String × Json)) (read : Except Mismatch Cursor) :
    unlessNull (.object members) read = read.map some := by
  cases read <;> rfl

/-- An absent half is found to be absent, and a half that is present is read. -/
theorem ends_fieldOf_half (h : HalfLaidOut name half fields)
    (ih : ∀ c ∈ half, ∀ v, LaidOut c v → ofJson v = c.reading) :
    (fieldOf (fun v => unlessNull v (ofJson v)) none fields).Ends
      (fun e => e = .emptyMerge ∧ halfWellFormed half = false)
      fun found => found.getD none = bareHalf half ∧ halfWellFormed half = true := by
  cases half with
  | none => obtain rfl | rfl := h <;> exact ⟨rfl, rfl⟩
  | some c =>
    obtain ⟨v, hv, rfl⟩ := h
    obtain ⟨members, rfl, -, -⟩ := hv.exists_members
    rw [fieldOf, unlessNull_object, ih c rfl _ hv]
    refine ((ends_reading c).map ?_).map fun _ => id
    rintro _ ⟨rfl, hformed⟩
    exact ⟨rfl, hformed⟩

theorem ofReadHalves_bareHalf (lower upper : Option Cursor) :
    ofReadHalves (bareHalf lower) (bareHalf upper) =
      if lower.isSome || upper.isSome then
        .ok (.merged (bareHalf lower) (bareHalf upper) false false)
      else .error .emptyMerge := by
  cases lower <;> cases upper <;> rfl

theorem offsetsOfMembers_map (pairs : List (String × UInt64)) (offsets : Offsets) :
    offsetsOfMembers offsets (pairs.map fun e => (e.1, .count e.2)) =
      .ok (pairs.foldl (fun m p => m.put p.1 p.2) offsets) := by
  induction pairs generalizing offsets with
  | nil => rfl
  | cons p pairs ih => exact ih _

theorem offsetsOfJson_offsetsToJson (offsets : Offsets) :
    offsetsOfJson (offsetsToJson offsets) = .ok offsets := by
  rw [offsetsToJson, offsetsOfJson, offsetsOfMembers_map]
  exact congrArg Except.ok (NameMap.ofPairs_entries offsets)

/-- A cursor is read from a value as it is read from the members of its bracket. -/
theorem ofJson_of_holds (h : LaidOut c v)
    (ih : ∀ members, Holds c members → ofMembers members c.kind = c.reading) :
    ofJson v = c.reading := by
  obtain ⟨members, rfl, htype, hholds⟩ := h.exists_members
  exact (ofJson_object_eq htype).trans (ih members hholds)

/-- The fields of a cursor are read in any layout. -/
theorem ofMembers_of_holds (h : Holds c members) : ofMembers members c.kind = c.reading := by
  induction c generalizing members with
  | plain p =>
    cases p with
    | sequence index =>
      show (soleField "index" (countOfJson "u64") none members >>= _) = _
      rw [soleField_eq h]
      rfl
    | partitions offsets =>
      show (soleField "offsets" offsetsOfJson none members >>= _) = _
      rw [soleField_eq h, offsetsOfJson_offsetsToJson]
      rfl
  | replay reset current replaying ihReset ihCurrent =>
    obtain ⟨⟨w, hw, htoken⟩, hcurrent⟩ := h
    have hfirst : (fieldOf ofJson none (called "token_at_reset" members)).Ends
        (fun e => e = .emptyMerge ∧ reset.wellFormed = false)
        fun found => found = some reset.bare ∧ reset.wellFormed = true := by
      rw [htoken, fieldOf, ofJson_of_holds hw fun _ => ihReset]
      exact (ends_reading reset).map fun d hd => ⟨congrArg some hd.1, hd.2⟩
    have hsecond := ends_fieldOf_half hcurrent fun c hc v hv =>
      ofJson_of_holds hv fun _ => ihCurrent c hc
    show replayOfMembers none none members = _
    rw [replayOfMembers_eq]
    refine twoFields_of_ends (by decide) hfirst hsecond (by simp [htoken]) hcurrent.names.2 ?_
    rintro _ found rfl hfound
    exact congrArg (fun half => Except.ok (startReplay reset.bare half)) hfound
  | merged lower upper lowerAdvanced upperAdvanced ihLower ihUpper =>
    obtain ⟨hlower, hupper⟩ := h
    have hfirst := ends_fieldOf_half hlower fun c hc v hv =>
      ofJson_of_holds hv fun _ => ihLower c hc
    have hsecond := ends_fieldOf_half hupper fun c hc v hv =>
      ofJson_of_holds hv fun _ => ihUpper c hc
    show mergedOfMembers none none members = _
    rw [mergedOfMembers_eq, twoFields_of_ends (by decide) hfirst hsecond hlower.names.2
      hupper.names.2 fun a b ha hb => congrArg₂ ofReadHalves ha hb, ofReadHalves_bareHalf, reading,
      wellFormed]
    cases lower.isSome || upper.isSome <;> simp [bare]

/-- **A cursor is read from a value in any layout,** without its flags, unless there is an empty
merge in it. -/
theorem ofJson_of_laidOut (h : LaidOut c v) : ofJson v = c.reading :=
  ofJson_of_holds h fun _ => ofMembers_of_holds

end Cursor

end StreamProgress
