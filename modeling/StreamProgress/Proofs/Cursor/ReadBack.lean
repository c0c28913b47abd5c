import StreamProgress.Checkpoint
import StreamProgress.Proofs.Cursor.Layout
import StreamProgress.Proofs.Json.Written

/-!
# Reading a cursor from text

A cursor that is laid out as a value is read from every text of that value, with its flags at their
defaults, that is, as its bare form. Two things can stand in the way: an empty merge, which is refused
when its halves are taken apart, and too many brackets inside each other, which are refused before
that. The written form is one layout of a cursor and its text one text of it.

## Two stages

The reader keeps the fields of the outermost bracket as plain values until it has seen the whole
bracket, and it judges the tag where it stands. So the bracket leads to the same draft in any order
of its members, the order of the fields apart (`Cursor.leads_draftMember`), and what the fields are
read as is told by their names (`Cursor.ofMembers_of_holds`). The nested cursors inside a cursor are
read as plain values first, so their depth counts, and then by `ofJson`.

## Main results

* `Cursor.parse_of_called_type` — a document, told by the fields of its bracket
* `Cursor.parse_of_mem_documents` — a cursor in any layout and any text
* `Cursor.parse_of_laidOut` — the layout does not matter
* `Cursor.ofJson_toJson` — the written form
* `Cursor.parse_text`, `parseNullable_text` — the text that a cursor is written as
* `Checkpoint.restore_of` — a checkpoint gives back its cursor
-/

namespace StreamProgress

namespace Cursor

open Json (Mismatch Fault)

variable {c : Cursor} {half : Option Cursor} {v : Json} {kind : Kind}
  {members : List (String × Json)} {text : String} {room nesting : Nat} {s rest : List Char}

/-! ### The members of a bracket -/

theorem tagReader_append (hs : s ∈ Json.blanks * Json.StringLiteral.spellings kind.name)
    (rest : List Char) : Kind.vocabulary.tagReader (s ++ rest) = .ok (kind, rest) := by
  obtain ⟨b, hb, _, ⟨_, rfl, t, ht, rfl⟩, rfl⟩ := hs
  rw [List.append_assoc, List.append_assoc, List.singleton_append, Json.Vocabulary.tagReader,
    Json.readString, Json.skipBlank_append hb, Json.skipBlank_cons rfl]
  simp only [Json.StringLiteral.scan_append ht, Kind.find_name]

/-- The tag is judged as it is met. -/
theorem reads_draftMember_tag (kind : Kind) (fields : List (String × Json)) :
    Json.Reads room (Json.namedStep (draftMember room nesting)) (Json.spellingsOf (tag kind))
      ⟨none, fields⟩ (.ok ⟨some kind, fields⟩) := by
  intro s hs _ rest _
  obtain ⟨_, ⟨m, hm, t, ht, rfl⟩, -, hstep⟩ :=
    Json.namedStep_append (draftMember room nesting) ⟨none, fields⟩ hs
  rw [hstep, tag, draftMember, if_pos rfl, List.append_assoc, Json.afterColon_append hm,
    tagReader_append ht]
  rfl

/-- A field is kept as a value. -/
theorem reads_draftMember {m : String × Json} (hname : m.1 ≠ "type")
    (draft : Draft (String × Json)) :
    Json.Reads room (Json.namedStep (draftMember room nesting)) (Json.spellingsOf m) draft
      (Json.within m.2.depth nesting { draft with fields := m :: draft.fields }) := by
  intro s hs hroom rest hrest
  obtain ⟨_, ⟨p, hp, t, ht, rfl⟩, hlength, hstep⟩ :=
    Json.namedStep_append (draftMember room nesting) draft hs
  rw [List.length_append] at hlength
  rw [hstep, draftMember, if_neg hname, Json.pushMember, List.append_assoc,
    Json.afterColon_append hp, Json.readsBack m.2 t ht (by omega) rest hrest, Json.within_map,
    Json.within_bind]
  exact Json.within_bind _ _

/-- Behind the tag all members are kept. -/
theorem leads_draftMember_of_ne (kind : Option Kind) (h : ∀ m ∈ members, m.1 ≠ "type")
    (taken : List (String × Json)) :
    Json.Leads room (Json.namedStep (draftMember room nesting)) ⟨kind, taken⟩
      (members.map Json.spellingsOf)
      (Json.within (Json.membersDepth members) nesting ⟨kind, members.reverse ++ taken⟩) := by
  induction members generalizing taken with
  | nil => exact .done _
  | cons m members ih =>
    obtain ⟨hm, hmembers⟩ := List.forall_mem_cons.1 h
    have hleads := (reads_draftMember hm ⟨kind, taken⟩).cons_within (ih hmembers (m :: taken))
    rw [List.reverse_cons, List.append_assoc]
    exact hleads

/-- **The members of a bracket are kept,** apart from the one tag among them. -/
theorem leads_draftMember (htype : called "type" members = [tag kind])
    (taken : List (String × Json)) :
    Json.Leads room (Json.namedStep (draftMember room nesting)) ⟨none, taken⟩
      (members.map Json.spellingsOf)
      (Json.within (Json.membersDepth members) nesting
        ⟨some kind, (members.filter fun m => m.1 ≠ "type").reverse ++ taken⟩) := by
  induction members generalizing taken with
  | nil => cases htype
  | cons m members ih =>
    obtain ⟨name, v⟩ := m
    by_cases hname : name = "type"
    · subst hname
      rw [called_cons_self] at htype
      obtain ⟨htag, hrest⟩ := List.cons.inj htype
      have hne : ∀ m ∈ members, m.1 ≠ "type" := fun m hm hm' =>
        List.filter_eq_nil_iff.1 hrest m hm (decide_eq_true hm')
      have hdepth : Json.membersDepth (tag kind :: members) = Json.membersDepth members :=
        Nat.zero_max _
      have hfilter : ((tag kind :: members).filter fun m => m.1 ≠ "type") = members := by
        simpa [tag] using hne
      rw [htag, hdepth, hfilter]
      exact .next (reads_draftMember_tag kind taken) (leads_draftMember_of_ne (some kind) hne taken)
    · rw [called_cons_of_ne hname] at htype
      have hleads := (reads_draftMember hname ⟨none, taken⟩).cons_within
        (ih htype ((name, v) :: taken))
      have hfilter : (((name, v) :: members).filter fun m => m.1 ≠ "type") =
          (name, v) :: members.filter fun m => m.1 ≠ "type" := by
        simp [hname]
      rw [hfilter, List.reverse_cons, List.append_assoc]
      exact hleads

/-! ### From text -/

/-- Leaving out the tag leaves the members of any other name. -/
theorem called_filter_type {name : String} (hname : name ≠ "type") :
    called name (members.filter fun m => m.1 ≠ "type") = called name members := by
  rw [called, called, List.filter_filter]
  refine List.filter_congr ?_
  intro m _
  by_cases hm : m.1 = name
  · simp [hm, hname]
  · simp [hm]

theorem Holds.filter_type (h : Holds c members) :
    Holds c (members.filter fun m => m.1 ≠ "type") :=
  h.of_called fun _ hname => called_filter_type (ne_type_of_mem_fieldNames hname)

/-- **A bracket is read as its fields are,** whatever text follows it, if there is one tag among its
members and the brackets are not nested too deep. -/
theorem reader_object_append (htype : called "type" members = [tag kind])
    (hs : s ∈ Json.blanks * (Json.object members).spellings) (hroom : s.length ≤ room)
    (rest : List Char) :
    reader room nesting (s ++ rest) =
      if nesting < (Json.object members).depth then .error .malformed
      else
        match ofMembers (members.filter fun m => m.1 ≠ "type") kind with
        | .error e => .error (.mismatch e none)
        | .ok c => .ok (c, rest) := by
  obtain ⟨b, hb, _, ⟨_, rfl, t, ht, rfl⟩, rfl⟩ := hs
  rw [Json.memberSpellings_eq] at ht
  simp only [List.length_append] at hroom
  rw [List.append_assoc, List.append_assoc, List.singleton_append, reader, Json.skipBlank_append hb,
    Json.skipBlank_cons rfl, Json.depth]
  cases nesting with
  | zero =>
    rw [if_pos (by omega)]
    rfl
  | succ nesting =>
    have hopens : ∀ entry ∈ members.map Json.spellingsOf, Json.Opens '\x7d' entry :=
      List.forall_mem_map.2 fun m _ => Json.opens_spellingsOf m
    have hmembers : Json.readMembers (draftMember room nesting) room ⟨none, []⟩ (t ++ rest) = _ :=
      Json.readEntries_of_leads (.inr rfl) (leads_draftMember htype []) hopens ht (by omega) rest
    simp only [hmembers, Json.within_map]
    by_cases hle : Json.membersDepth members ≤ nesting
    · rw [Json.within_of_le hle, if_neg (by omega)]
      cases hfields : ofMembers (members.filter fun m => m.1 ≠ "type") kind <;>
        simp only [Except.ok_bind, finish, List.append_nil, List.reverse_reverse, hfields]
    · rw [Json.within_of_lt (Nat.not_le.1 hle), if_pos (by omega)]
      rfl

/-- A cursor is not mistaken for an absent one. -/
theorem readNullable_append (h : LaidOut c v) (hs : s ∈ Json.blanks * v.spellings)
    (rest : List Char) : Json.readNullable (reader room nesting) (s ++ rest) =
      (reader room nesting (s ++ rest)).map fun p => (some p.1, p.2) := by
  obtain ⟨members, rfl, -, -⟩ := h.exists_members
  obtain ⟨b, hb, _, ⟨_, rfl, t, -, rfl⟩, rfl⟩ := hs
  have hreader : reader room nesting (b ++ '\x7b' :: (t ++ rest)) =
      reader room nesting ('\x7b' :: (t ++ rest)) := by
    rw [reader, Json.skipBlank_append hb, reader]
  rw [List.append_assoc, List.append_assoc, List.singleton_append, hreader, Json.readNullable,
    Json.skipBlank_append hb, Json.skipBlank_cons rfl]
  show (reader room nesting ('\x7b' :: (t ++ rest)) >>= _) = _
  cases reader room nesting ('\x7b' :: (t ++ rest)) <;> rfl

/-- **A document is read as the fields of its bracket are,** if there is one tag among the members and
the brackets are not nested too deep. -/
theorem parse_of_called_type (htype : called "type" members = [tag kind])
    (htext : text.toList ∈ (Json.object members).documents) :
    parse text =
      if Json.maxNesting < (Json.object members).depth then .error .malformed
      else
        (ofMembers (members.filter fun m => m.1 ≠ "type") kind).mapError fun e =>
          .mismatch e none := by
  obtain ⟨s, hs, b, hb, htext⟩ := htext
  have hroom : s.length ≤ Json.roomFor (s ++ b) := by
    rw [Json.roomFor, List.length_append]
    omega
  rw [parse, ← htext, Json.readDocument, reader_object_append htype hs hroom]
  by_cases hdeep : Json.maxNesting < (Json.object members).depth
  · rw [if_pos hdeep, if_pos hdeep]
  · rw [if_neg hdeep, if_neg hdeep]
    cases ofMembers (members.filter fun m => m.1 ≠ "type") kind with
    | error e => rfl
    | ok c =>
      simp only [Json.skipBlank_blanks hb]
      rfl

/-- **A cursor in any layout is read from any text,** if its brackets are not nested too deep and no
merge in it is empty. -/
theorem parse_of_mem_documents (h : LaidOut c v) (htext : text.toList ∈ v.documents) :
    parse text =
      if Json.maxNesting < v.depth then .error .malformed
      else if c.wellFormed then .ok c.bare
      else .error (.mismatch .emptyMerge none) := by
  obtain ⟨members, rfl, htype, hholds⟩ := h.exists_members
  rw [parse_of_called_type htype htext, ofMembers_of_holds hholds.filter_type, reading]
  cases c.wellFormed <;> rfl

theorem parseNullable_of_mem_documents (h : LaidOut c v) (htext : text.toList ∈ v.documents) :
    parseNullable text = (parse text).map some := by
  obtain ⟨s, hs, b, -, htext⟩ := htext
  rw [parseNullable, parse, ← htext]
  exact Json.readDocument_map (readNullable_append h hs b)

/-- **The layout of a document does not matter.** The members of every cursor in it may stand in any
order with other members between them, absent halves may be left out, and blanks and escapes are free.
If a cursor has no empty merge in it and the brackets are nested at most 127 deep, the document is
read as an equal cursor with all flags at their defaults. -/
theorem parse_of_laidOut (hformed : c.wellFormed = true) (hlaid : LaidOut c v)
    (hdepth : v.depth ≤ 127) (htext : text.toList ∈ v.documents) :
    ∃ d, parse text = .ok d ∧ (d == c) = true ∧ d.flagsAtDefault = true := by
  refine ⟨c.bare, ?_, beq_iff.2 (bare_bare c), flagsAtDefault_iff.2 (bare_bare c)⟩
  rw [parse_of_mem_documents hlaid htext, Json.maxNesting, if_neg (Nat.not_lt.2 hdepth), if_pos hformed]

/-- A document with the tags behind the fields, members that are no fields of their kind, one of them
twice, and two absent halves that are left out. -/
def tagsLast : Json :=
  .object
    [("lower_segment", .object
      [("token_at_reset", .object [("index", .count 3), ("type", .string "sequence")]),
        ("index", .array []), ("type", .string "replay")]),
      ("note", .null), ("note", .bool true), ("type", .string "merged")]

theorem laidOut_tagsLast :
    LaidOut (merged (some (replay (sequence 3) none false)) none true false) tagsLast := by
  have hreset : LaidOut (sequence 3) (.object [("index", .count 3), ("type", .string "sequence")]) :=
    ⟨_, [], rfl, List.Perm.swap _ _ [], List.forall_mem_nil _⟩
  have hreplay : LaidOut (replay (sequence 3) none false) (.object
      [("token_at_reset", .object [("index", .count 3), ("type", .string "sequence")]),
        ("index", .array []), ("type", .string "replay")]) :=
    ⟨_, [], hreset, .inl rfl, _, [("index", .array [])], rfl,
      List.perm_append_singleton (tag .replay) [_, _], by simp [Kind.fieldNames]⟩
  exact ⟨_, [], ⟨_, hreplay, rfl⟩, .inl rfl, _, [("note", .null), ("note", .bool true)], rfl,
    List.perm_append_singleton (tag .merged) [_, _, _], by simp [Kind.fieldNames]⟩

/-- A text of the document, with blanks around it. -/
def tagsLastText : String := String.ofList ([' ', '\n'] ++ tagsLast.write ['\t'])

theorem tagsLastText_mem_documents : tagsLastText.toList ∈ tagsLast.documents := by
  obtain ⟨s, hs, hwrite⟩ := Json.exists_write (rfl : tagsLast.counted = true) ['\t']
  have hfront : [' ', '\n'] ∈ Json.blanks :=
    List.forall_mem_cons.2 ⟨rfl, List.forall_mem_singleton.2 rfl⟩
  have hback : ['\t'] ∈ Json.blanks := List.forall_mem_singleton.2 rfl
  refine ⟨_, ⟨_, hfront, s, hs, rfl⟩, _, hback, ?_⟩
  rw [tagsLastText, String.toList_ofList, hwrite]
  exact List.append_assoc ..

/-- The document is read like the text that the cursor itself is written as. -/
theorem parse_of_laidOut_tagsLast :
    ∃ d, parse tagsLastText = .ok d ∧
      (d == merged (some (replay (sequence 3) none false)) none true false) = true ∧
      d.flagsAtDefault = true :=
  parse_of_laidOut rfl laidOut_tagsLast (by decide) tagsLastText_mem_documents

/-! ### The written form is a layout -/

theorem arranged_of_eq {kind : Kind} {fields : List (String × Json)}
    (h : v = .object (tag kind :: fields)) : Arranged kind fields v :=
  ⟨_, [], h, by rw [List.append_nil], List.forall_mem_nil _⟩

theorem halfLaidOut_halfToJson (name : String) (ih : ∀ c ∈ half, LaidOut c c.toJson) :
    HalfLaidOut name half [(name, halfToJson half)] := by
  cases half with
  | none => exact .inr rfl
  | some c => exact ⟨_, ih c rfl, rfl⟩

theorem laidOut_toJson (c : Cursor) : LaidOut c c.toJson := by
  induction c with
  | plain p => cases p <;> exact arranged_of_eq rfl
  | replay reset current replaying ihReset ihCurrent =>
    exact ⟨_, _, ihReset, halfLaidOut_halfToJson _ ihCurrent, arranged_of_eq rfl⟩
  | merged lower upper lowerAdvanced upperAdvanced ihLower ihUpper =>
    exact ⟨_, _, halfLaidOut_halfToJson _ ihLower, halfLaidOut_halfToJson _ ihUpper,
      arranged_of_eq rfl⟩

/-- **A written cursor is read back without its flags,** unless there is an empty merge in it. -/
theorem ofJson_toJson (c : Cursor) :
    ofJson c.toJson = if c.wellFormed then .ok c.bare else .error .emptyMerge :=
  ofJson_of_laidOut (laidOut_toJson c)

/-! ### The shape of the written form -/

theorem membersCounted_offsets (pairs : List (String × UInt64)) :
    Json.membersCounted (pairs.map fun e => (e.1, .count e.2)) = true := by
  induction pairs with
  | nil => rfl
  | cons p pairs ih => exact ih

theorem membersDepth_offsets (pairs : List (String × UInt64)) :
    Json.membersDepth (pairs.map fun e => (e.1, .count e.2)) = 0 := by
  induction pairs with
  | nil => rfl
  | cons p pairs ih => exact ih

/-- All numbers in a written cursor are counts. -/
theorem counted_toJson (c : Cursor) : c.toJson.counted = true := by
  induction c with
  | plain p =>
    cases p with
    | sequence i => rfl
    | partitions offsets =>
      simp [toJson, tag, offsetsToJson, Json.counted, Json.membersCounted, membersCounted_offsets]
  | replay reset current replaying ihReset ihCurrent =>
    have hcurrent : (halfToJson current).counted = true := forall_half current rfl ihCurrent
    simp [toJson, tag, Json.counted, Json.membersCounted, ihReset, hcurrent]
  | merged lower upper lowerAdvanced upperAdvanced ihLower ihUpper =>
    have hlower : (halfToJson lower).counted = true := forall_half lower rfl ihLower
    have hupper : (halfToJson upper).counted = true := forall_half upper rfl ihUpper
    simp [toJson, tag, Json.counted, Json.membersCounted, hlower, hupper]

theorem depth_toJson (c : Cursor) : c.toJson.depth = c.depth := by
  induction c with
  | plain p =>
    cases p with
    | sequence i => rfl
    | partitions offsets =>
      simp [toJson, tag, offsetsToJson, Json.depth, Json.membersDepth, membersDepth_offsets, depth]
  | replay reset current replaying ihReset ihCurrent =>
    have hcurrent : (halfToJson current).depth = depthOf current :=
      forall_half current rfl ihCurrent
    simp [toJson, tag, Json.depth, Json.membersDepth, ihReset, hcurrent, depth]
  | merged lower upper lowerAdvanced upperAdvanced ihLower ihUpper =>
    have hlower : (halfToJson lower).depth = depthOf lower := forall_half lower rfl ihLower
    have hupper : (halfToJson upper).depth = depthOf upper := forall_half upper rfl ihUpper
    simp [toJson, tag, Json.depth, Json.membersDepth, hlower, hupper, depth]

/-! ### The written text -/

theorem text_mem_documents (c : Cursor) : c.text.toList ∈ c.toJson.documents :=
  Json.text_mem_documents (counted_toJson c)

/-- The text of a cursor is read back. -/
theorem parse_text (c : Cursor) :
    parse c.text =
      if Json.maxNesting < c.depth then .error .malformed
      else if c.wellFormed then .ok c.bare
      else .error (.mismatch .emptyMerge none) := by
  rw [parse_of_mem_documents (laidOut_toJson c) (text_mem_documents c), depth_toJson]

/-- The text of an optional cursor is read back. -/
theorem parseNullable_text (half : Option Cursor) :
    parseNullable (halfToJson half).text =
      if Json.maxNesting < depthOf half then .error .malformed
      else if halfWellFormed half then .ok (bareHalf half)
      else .error (.mismatch .emptyMerge none) := by
  cases half with
  | none => rfl
  | some c =>
    rw [halfToJson, ← Cursor.text,
      parseNullable_of_mem_documents (laidOut_toJson c) (text_mem_documents c), parse_text, depthOf,
      halfWellFormed, bareHalf]
    by_cases hdeep : Json.maxNesting < c.depth
    · rw [if_pos hdeep, if_pos hdeep]
      rfl
    · rw [if_neg hdeep, if_neg hdeep]
      by_cases hformed : c.wellFormed = true
      · rw [if_pos hformed, if_pos hformed]
        rfl
      · rw [if_neg hformed, if_neg hformed]
        rfl

end Cursor

namespace Checkpoint

open Cursor

/-- **A checkpoint gives back its cursor,** without its flags. -/
theorem restore_of (verify : Bool) (half : Option Cursor) :
    (Checkpoint.of half).restore verify =
      if Json.maxNesting < depthOf half then .error (.unreadable .malformed)
      else if halfWellFormed half then .ok (bareHalf half)
      else .error (.unreadable (.mismatch .emptyMerge none)) := by
  have hchecksum : (verify && checksumOf (Checkpoint.of half).payload !=
      (Checkpoint.of half).checksum) = false := by
    simp [Checkpoint.of]
  have hkind := map_kind_bareHalf half
  rw [restore, hchecksum, decode, Checkpoint.of]
  simp only [parseNullable_text]
  by_cases hdeep : Json.maxNesting < depthOf half
  · simp [hdeep]
  · by_cases hformed : halfWellFormed half = true
    · simp [hdeep, hformed, hkind]
    · simp [hdeep, hformed]

end Checkpoint

end StreamProgress
