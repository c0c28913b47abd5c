import StreamProgress.Proofs.Cursor.ReadBack
import StreamProgress.Proofs.Journal.Retention
import StreamProgress.Proofs.Json.Exact

/-!
# Entries are recovered from their lines

A journal is a text of one line for each entry, so a line must not be broken or forged by what stands
in it. The names of the module and the segment and the message may be any strings. What is written of
them has no control character, so no line ends early, and the whole line is read as one object whose
members are the parts of the entry, so no part runs into another.

## The nesting moves by one

The cursor of an entry stands inside the object of the line, which is one bracket more. A line can be
read if the cursor is nested at most 126 deep (`Entry.parse_line_iff`), whereas a checkpoint of the
cursor can be restored up to 127.

## Main definitions

* `Entry.RecoveredFrom` — whether a line gives back an entry

## Main results

* `Entry.recoveredFrom_line` — the line of an entry gives it back
* `Entry.RecoveredFrom.unique` — and no other entry
* `Journal.record_recovered` — the line that is stored when an entry is offered
* `Journal.recovered_of_mem_lines` — all lines that are kept after any calls
-/

namespace StreamProgress

theorem Level.name_injective : Function.Injective Level.name := by
  intro a b h
  exact Except.ok.inj ((find_name a).symm.trans (h ▸ find_name b))

namespace Entry

variable {e : Entry} {speaker : String}

/-! ### The object of an entry -/

theorem counted_toJson (speaker : String) (e : Entry) : (e.toJson speaker).counted = true := by
  obtain ⟨time, level, segment, message, cursor⟩ := e
  cases cursor with
  | none => rfl
  | some c => simp [toJson, Json.counted, Json.membersCounted, Json.count, Cursor.counted_toJson]

/-- The cursor is nested one deeper than by itself. -/
theorem depth_toJson (speaker : String) (e : Entry) :
    (e.toJson speaker).depth = 1 + Cursor.depthOf e.cursor := by
  obtain ⟨time, level, segment, message, cursor⟩ := e
  cases cursor with
  | none => rfl
  | some c =>
    simp [toJson, Json.depth, Json.membersDepth, Json.count, Cursor.depth_toJson, Cursor.depthOf]

/-- **The line of an entry is the text of one object,** which can be read as long as the cursor is
nested at most 126 deep. -/
theorem parse_line_iff :
    Json.parse Json.maxNesting (e.line speaker) = .ok (e.toJson speaker) ↔
      Cursor.depthOf e.cursor ≤ 126 := by
  have hdocument := Json.text_mem_documents (counted_toJson speaker e)
  rw [Json.parse_eq_ok_iff, depth_toJson, Json.maxNesting, Entry.line, and_iff_right hdocument]
  omega

/-! ### Recovering an entry -/

/-- Whether an optional cursor is what the members behind the message are read as, both as a value and
by its text. -/
def CursorRead : Option Cursor → List (String × Json) → Prop
  | none, members => members = []
  | some c, members => ∃ v d, members = [("cursor", v)] ∧ Cursor.ofJson v = .ok d ∧
      Cursor.parse v.text = .ok d ∧ (d == c) = true

/-- Whether a line gives back an entry of a module. -/
structure RecoveredFrom (speaker line : String) (e : Entry) : Prop where
  /-- The line is one line. -/
  control : ∀ c ∈ line.toList, 0x20 ≤ c.toNat
  /-- The line is one object with the parts of the entry. -/
  parts : ∃ cursor,
    Json.parse Json.maxNesting line = .ok (.object
      ([("ts", .count e.time), ("level", .string e.level.name), ("module", .string speaker),
        ("segment", .string e.segment), ("message", .string e.message)] ++ cursor)) ∧
      CursorRead e.cursor cursor

/-- **The line of an entry gives it back,** if its cursor has no empty merge and is nested at most 126
deep. -/
theorem recoveredFrom_line (hformed : Cursor.halfWellFormed e.cursor = true)
    (hdepth : Cursor.depthOf e.cursor ≤ 126) : e.RecoveredFrom speaker (e.line speaker) where
  control _ hc := Json.le_of_mem_text (counted_toJson speaker e) hc
  parts := by
    refine ⟨_, parse_line_iff.2 hdepth, ?_⟩
    obtain ⟨time, level, segment, message, cursor⟩ := e
    cases cursor with
    | none => rfl
    | some c =>
      have hwellFormed : c.wellFormed = true := hformed
      have hdeep : ¬Json.maxNesting < c.depth := Nat.not_lt.2 (Nat.le_succ_of_le hdepth)
      refine ⟨c.toJson, c.bare, rfl, ?_, ?_, Cursor.beq_iff.2 (Cursor.bare_bare c)⟩
      · rw [Cursor.ofJson_toJson, if_pos hwellFormed]
      · rw [← Cursor.text, Cursor.parse_text, if_neg hdeep, if_pos hwellFormed]

theorem CursorRead.beq {half half' : Option Cursor} {members : List (String × Json)}
    (h : CursorRead half members) (h' : CursorRead half' members) : (half == half') = true := by
  cases half with
  | none =>
    obtain rfl : members = [] := h
    cases half' with
    | none => rfl
    | some c => simp [CursorRead] at h'
  | some c =>
    obtain ⟨v, d, rfl, hd, -, hc⟩ := h
    cases half' with
    | none => cases h'
    | some c' =>
      obtain ⟨v', d', hmember, hd', -, hc'⟩ := h'
      obtain rfl : v = v' := by simpa using hmember
      obtain rfl : d = d' := Except.ok.inj (hd.symm.trans hd')
      have hbare : c.bare = c'.bare := (Cursor.beq_iff.1 hc).symm.trans (Cursor.beq_iff.1 hc')
      exact Cursor.beq_half_iff.2 (congrArg some hbare)

/-- **A line gives back one entry only,** up to flags, whatever journal it stands in. -/
theorem RecoveredFrom.unique {e' : Entry} {speaker' line : String} (h : e.RecoveredFrom speaker line)
    (h' : e'.RecoveredFrom speaker' line) :
    e.time = e'.time ∧ e.level = e'.level ∧ speaker = speaker' ∧ e.segment = e'.segment ∧
      e.message = e'.message ∧ (e.cursor == e'.cursor) = true := by
  obtain ⟨-, cursor, hparse, hcursor⟩ := h
  obtain ⟨-, cursor', hparse', hcursor'⟩ := h'
  have hobject := Json.object.inj (Except.ok.inj (hparse.symm.trans hparse'))
  simp only [List.cons_append, List.nil_append, List.cons.injEq, Prod.mk.injEq, true_and,
    Json.count, Json.number.injEq, Json.Number.natural.injEq, Json.string.injEq] at hobject
  obtain ⟨htime, hlevel, hspeaker, hsegment, hmessage, rfl⟩ := hobject
  exact ⟨htime, Level.name_injective hlevel, hspeaker, hsegment, hmessage, hcursor.beq hcursor'⟩

end Entry

namespace Journal

variable {j : Journal} {e : Entry} {line : String} {calls : List Call}

/-- **What is stored of an entry gives it back.** Offer an entry to a journal that records entries of
its level. The names of the module and of the segment and the message are any strings, and the cursor,
if there is one, has no empty merge and is nested at most 126 deep. Then the last line of the journal
has no character below `U+0020` and is read as one object. Its members are the time, the level, the
names and the message as they were given, and behind them the cursor exactly if there is one, which is
read as an equal cursor. -/
theorem record_recovered (hlevel : j.enabled e.level = true)
    (hformed : Cursor.halfWellFormed e.cursor = true) (hdepth : Cursor.depthOf e.cursor ≤ 126) :
    ∃ line, (j.record e).lines.getLast? = some line ∧ e.RecoveredFrom j.speaker line := by
  refine ⟨e.line j.speaker, ?_, Entry.recoveredFrom_line hformed hdepth⟩
  rw [record, if_pos hlevel, getLast?_lines_write]

/-- Quotes, line breaks and another object in the names and in the message. -/
theorem record_recovered_quotes :
    let e : Entry := ⟨7, .warn, "orders\n\"7\"", "\x00\",\"ts\":8,\"x\":\"",
      some (.merged (some (.sequence 3)) none true false)⟩
    ∃ line, ((start "a\tb" {} .info).record e).lines.getLast? = some line ∧
      e.RecoveredFrom "a\tb" line := by
  intro e
  have hlevel : (start "a\tb" {} .info).enabled e.level = true := rfl
  have hdepth : Cursor.depthOf e.cursor ≤ 126 := by decide
  exact record_recovered hlevel rfl hdepth

/-! ### All lines -/

theorem speaker_perform (j : Journal) (call : Call) : (j.perform call).speaker = j.speaker := by
  cases call with
  | log entry => exact speaker_record j entry
  | setLevel level => rfl

/-- A line is kept from before, or it is the line of the entry. -/
theorem mem_lines_record (h : line ∈ (j.record e).lines) :
    line ∈ j.lines ∨ line = e.line j.speaker := by
  have hmem := (lines_record_suffix j e).subset h
  refine (List.mem_append.1 hmem).imp_right fun hnew => ?_
  split at hnew
  · exact List.mem_singleton.1 hnew
  · cases hnew

theorem mem_lines_performAll (h : line ∈ (j.performAll calls).lines) :
    line ∈ j.lines ∨ ∃ e, .log e ∈ calls ∧ line = e.line j.speaker := by
  induction calls generalizing j with
  | nil => exact .inl h
  | cons call calls ih =>
    obtain hstep | ⟨e, he, rfl⟩ := ih h
    · cases call with
      | log entry => exact (mem_lines_record hstep).imp_right fun hline => ⟨entry, .head _, hline⟩
      | setLevel level => exact .inl hstep
    · exact .inr ⟨e, .tail _ he, by rw [speaker_perform]⟩

/-- **Every line that is kept gives back an entry that was offered,** after any calls, if the cursors
of the entries have no empty merge and are nested at most 126 deep. -/
theorem recovered_of_mem_lines {speaker : String} {retention : Retention} {level : Level}
    (hcalls : ∀ e, .log e ∈ calls →
      Cursor.halfWellFormed e.cursor = true ∧ Cursor.depthOf e.cursor ≤ 126)
    (hline : line ∈ ((start speaker retention level).performAll calls).lines) :
    ∃ e, .log e ∈ calls ∧ e.RecoveredFrom speaker line := by
  obtain hline | ⟨e, he, rfl⟩ := mem_lines_performAll hline
  · cases hline
  · obtain ⟨hformed, hdepth⟩ := hcalls e he
    exact ⟨e, he, Entry.recoveredFrom_line hformed hdepth⟩

end Journal

end StreamProgress
