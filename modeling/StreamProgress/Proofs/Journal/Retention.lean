import Mathlib.Data.List.DropRight
import StreamProgress.Proofs.Journal.Lines

/-!
# The files that a journal keeps

A journal discards its oldest files, so its own state does not tell what it has discarded. A
`Chronicle` fills its files by the same rule and discards none of them: it is the journal that
retention is measured against. Given the same calls the journal holds the last files of the
chronicle, as many as its archive has room for and the active one, each with all of its lines and
with the same count of bytes.

## Discarding does not show in what follows

Whether a line fits is asked of the active file only, and the active file is never discarded. So a
journal that has forgotten files goes on exactly as the chronicle does, and discarding at every step
comes to the same as discarding once at the end (`Journal.rtake_rtake_append`). This holds for every
limit: where no archived file is kept, what is left is the active file, and where no byte fits,
every line has a file to itself.

## Main definitions

* `Chronicle` — a journal that discards nothing
* `Journal.Call` — what is done to a journal
* `Journal.accepted` — the lines of the entries that were not below the level at their time

## Main results

* `Chronicle.lines_performAll` — a chronicle has all accepted lines
* `Journal.KeepsNewest.performAll` — a journal and its chronicle, after any calls
* `Journal.files_of_chronicle` — the files and the lines that a journal keeps
-/

namespace StreamProgress

/-! ### Calls -/

namespace Journal

/-- What is done to a journal. -/
inductive Call where
  /-- An entry is offered. -/
  | log (entry : Entry)
  | setLevel (level : Level)

/-- The journal after a call. -/
def perform (j : Journal) : Call → Journal
  | .log entry => j.record entry
  | .setLevel level => j.setLevel level

/-- The journal after all calls, one after the other. -/
def performAll (j : Journal) (calls : List Call) : Journal := calls.foldl perform j

/-- The lines of the entries that were not below the level at their time, if `level` is the first
one. -/
def accepted (speaker : String) : Level → List Call → List String
  | _, [] => []
  | level, .log entry :: calls =>
    if level ≤ entry.level then entry.line speaker :: accepted speaker level calls
    else accepted speaker level calls
  | _, .setLevel level :: calls => accepted speaker level calls

end Journal

open Journal (Call accepted)

/-! ### Nothing is discarded -/

/-- A journal that discards nothing. -/
structure Chronicle where
  /-- The name of the module that the journal speaks for. -/
  speaker : String
  /-- The size that a file should not exceed, in bytes. -/
  maxBytes : Nat
  /-- Entries below this level are not recorded. -/
  level : Level
  /-- All files that were completed, the oldest first. -/
  archive : List LogFile
  /-- The file that grows. -/
  active : LogFile

namespace Chronicle

/-- A chronicle without lines. -/
def start (speaker : String) (maxBytes : Nat) (level : Level) : Chronicle :=
  ⟨speaker, maxBytes, level, [], {}⟩

/-- The chronicle with one more line, which is in a new file if the active one has lines and no room
for it. -/
def write (c : Chronicle) (line : String) : Chronicle :=
  if c.active.bytes + line.utf8ByteSize ≤ c.maxBytes ∨ c.active.lines = [] then
    { c with active := c.active.push line }
  else
    { c with
      archive := c.archive ++ [c.active]
      active := ({} : LogFile).push line }

/-- The chronicle after a call. -/
def perform (c : Chronicle) : Call → Chronicle
  | .log entry => if c.level ≤ entry.level then c.write (entry.line c.speaker) else c
  | .setLevel level => { c with level }

/-- The chronicle after all calls, one after the other. -/
def performAll (c : Chronicle) (calls : List Call) : Chronicle := calls.foldl perform c

/-- All files, the oldest first and the active one last. -/
def files (c : Chronicle) : List LogFile := c.archive ++ [c.active]

/-- All lines, the oldest first. -/
def lines (c : Chronicle) : List String := c.files.flatMap LogFile.lines

variable {c : Chronicle}

@[simp] theorem speaker_write (c : Chronicle) (line : String) :
    (c.write line).speaker = c.speaker := by
  rw [write]
  split <;> rfl

@[simp] theorem level_write (c : Chronicle) (line : String) : (c.write line).level = c.level := by
  rw [write]
  split <;> rfl

theorem lines_write (c : Chronicle) (line : String) : (c.write line).lines = c.lines ++ [line] := by
  rw [write]
  split
  · simp [lines, files, LogFile.push]
  · simp [lines, files, LogFile.push]

/-- **A chronicle has all lines that were accepted,** in their order. -/
theorem lines_performAll (c : Chronicle) (calls : List Call) :
    (c.performAll calls).lines = c.lines ++ accepted c.speaker c.level calls := by
  induction calls generalizing c with
  | nil => exact (List.append_nil c.lines).symm
  | cons call calls ih =>
    rw [performAll, List.foldl_cons, ← performAll, ih]
    cases call with
    | log entry =>
      rw [perform, accepted]
      by_cases hlevel : c.level ≤ entry.level
      · rw [if_pos hlevel, if_pos hlevel, lines_write, speaker_write, level_write,
          List.append_assoc, List.singleton_append]
      · rw [if_neg hlevel, if_neg hlevel]
    | setLevel level => rfl

end Chronicle

/-! ### The newest files -/

namespace Journal

variable {j : Journal} {c : Chronicle}

/-- The newest of the newest. -/
theorem rtake_rtake (files : List LogFile) (m n : ℕ) :
    (files.rtake m).rtake n = files.rtake (min n m) := by
  simp only [List.rtake_eq_reverse_take_reverse, List.reverse_reverse, List.take_take]

/-- The newest files are the same, whether older ones were discarded before the last file came or
not. -/
theorem rtake_rtake_append (n : ℕ) (files : List LogFile) (file : LogFile) :
    (files.rtake n ++ [file]).rtake n = (files ++ [file]).rtake n := by
  cases n with
  | zero => rw [List.rtake_zero, List.rtake_zero]
  | succ n =>
    rw [List.rtake_concat_succ, List.rtake_concat_succ, rtake_rtake,
      Nat.min_eq_left (Nat.le_succ n)]

/-- What holds between a journal that keeps `maxFiles` archived files and its chronicle. -/
structure KeepsNewest (maxFiles : Nat) (j : Journal) (c : Chronicle) : Prop where
  speaker : j.speaker = c.speaker
  retention : j.retention = ⟨c.maxBytes, maxFiles⟩
  level : j.level = c.level
  /-- The active file is never discarded. -/
  active : j.active = c.active
  archive : j.archive = c.archive.rtake maxFiles

namespace KeepsNewest

variable {maxFiles : Nat}

theorem write (h : KeepsNewest maxFiles j c) (line : String) :
    KeepsNewest maxFiles (j.write line) (c.write line) := by
  obtain ⟨speaker, retention, level, archive, active⟩ := j
  obtain ⟨rfl, rfl, rfl, rfl, rfl⟩ := h
  simp only [Journal.write, makeRoom, Chronicle.write]
  split
  · exact ⟨rfl, rfl, rfl, rfl, rfl⟩
  · exact ⟨rfl, rfl, rfl, rfl, rtake_rtake_append maxFiles c.archive c.active⟩

theorem perform (h : KeepsNewest maxFiles j c) (call : Call) :
    KeepsNewest maxFiles (j.perform call) (c.perform call) := by
  cases call with
  | log entry =>
    rw [Journal.perform, record, enabled, h.level, h.speaker, Chronicle.perform]
    by_cases hlevel : c.level ≤ entry.level
    · rw [if_pos (decide_eq_true hlevel), if_pos hlevel]
      exact h.write (entry.line c.speaker)
    · rw [if_neg (by simpa using hlevel), if_neg hlevel]
      exact h
  | setLevel level => exact ⟨h.speaker, h.retention, rfl, h.active, h.archive⟩

theorem performAll (h : KeepsNewest maxFiles j c) (calls : List Call) :
    KeepsNewest maxFiles (j.performAll calls) (c.performAll calls) := by
  induction calls generalizing j c with
  | nil => exact h
  | cons call calls ih => exact ih (h.perform call)

/-- The active file is one more than those that the archive has room for. -/
theorem files (h : KeepsNewest maxFiles j c) : j.files = c.files.rtake (maxFiles + 1) := by
  rw [Journal.files, h.archive, h.active, Chronicle.files, List.rtake_concat_succ]

end KeepsNewest

theorem keepsNewest_start (speaker : String) (retention : Retention) (level : Level) :
    KeepsNewest retention.maxFiles (start speaker retention level)
      (.start speaker retention.maxBytes level) :=
  ⟨rfl, rfl, rfl, rfl, (List.rtake_nil retention.maxFiles).symm⟩

/-! ### The newest line -/

@[simp] theorem level_record (j : Journal) (e : Entry) : (j.record e).level = j.level := by
  rw [record]
  split
  · rw [write, makeRoom]
    split <;> rfl
  · rfl

theorem getLast?_lines_write (j : Journal) (line : String) :
    (j.write line).lines.getLast? = some line := by
  rw [lines_eq, write, LogFile.push, ← List.append_assoc, List.getLast?_concat]

/-- The last line of a journal is the one that was accepted last. -/
theorem getLast?_lines_performAll (j : Journal) (calls : List Call) :
    (j.performAll calls).lines.getLast? =
      (accepted j.speaker j.level calls).getLast?.or j.lines.getLast? := by
  induction calls generalizing j with
  | nil => rfl
  | cons call calls ih =>
    rw [performAll, List.foldl_cons, ← performAll, ih]
    cases call with
    | log entry =>
      rw [perform, speaker_record, level_record, accepted, record, enabled]
      by_cases hlevel : j.level ≤ entry.level
      · rw [if_pos (decide_eq_true hlevel), if_pos hlevel, getLast?_lines_write,
          List.getLast?_cons, Option.or_some, Option.some_or]
      · rw [if_neg (by simpa using hlevel), if_neg hlevel]
    | setLevel level => rfl

/-! ### What is kept -/

/-- **A journal keeps its newest files, whole.** Start a journal with any retention, and offer it
entries and set its level in any order. Of the files of the chronicle that gets the same calls it
holds the last ones, as many as the archive has room for and one more, and all of them if there are
fewer. The chronicle has exactly the lines that were accepted, so what the journal has lost are
whole files from the front, and what it has is the rest of the accepted lines; the last of them is
always there. -/
theorem files_of_chronicle (speaker : String) (retention : Retention) (level : Level)
    (calls : List Call) :
    let j := (start speaker retention level).performAll calls
    let c := (Chronicle.start speaker retention.maxBytes level).performAll calls
    j.files = c.files.rtake (min c.files.length (retention.maxFiles + 1)) ∧
      c.lines = accepted speaker level calls ∧
        (∃ lost, c.files = lost ++ j.files ∧
          accepted speaker level calls = lost.flatMap LogFile.lines ++ j.lines) ∧
          j.lines.getLast? = (accepted speaker level calls).getLast? := by
  intro j c
  have hfiles : j.files = c.files.rtake (retention.maxFiles + 1) :=
    ((keepsNewest_start speaker retention level).performAll calls).files
  have hlines : c.lines = accepted speaker level calls :=
    Chronicle.lines_performAll (.start speaker retention.maxBytes level) calls
  have hall : c.files.rtake c.files.length = c.files := by
    rw [List.rtake, Nat.sub_self, List.drop_zero]
  refine ⟨?_, hlines, ?_, ?_⟩
  · rw [hfiles, Nat.min_comm, ← rtake_rtake, hall]
  · obtain ⟨lost, hlost⟩ : j.files <:+ c.files := hfiles ▸ List.drop_suffix _ _
    refine ⟨lost, hlost.symm, ?_⟩
    rw [← hlines, Chronicle.lines, ← hlost, List.flatMap_append, lines]
  · rw [getLast?_lines_performAll]
    exact Option.or_none

/-- No byte fits and nothing is archived, so every line is alone in its file and the last one is
kept. The third entry is below the level that was set before it. -/
example :
    let calls : List Call := [.log ⟨1, .info, "orders-7", "cursor advanced", none⟩,
      .log ⟨2, .info, "orders-7", "cursor advanced", none⟩, .setLevel .warn,
      .log ⟨3, .info, "orders-7", "cursor advanced", none⟩]
    let j := (start "m" ⟨0, 0⟩ .info).performAll calls
    let c := (Chronicle.start "m" 0 .info).performAll calls
    (j.files.map fun f => f.lines.length, c.files.map fun f => f.lines.length) =
      ([1], [1, 1]) := by
  rfl

end Journal

end StreamProgress
