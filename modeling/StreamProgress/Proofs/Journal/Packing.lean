import Mathlib.Data.List.Chain
import StreamProgress.Proofs.Journal.Retention

/-!
# How lines are packed into files

Where a line goes depends on the sizes of all lines before it, as these decide how full the active
file is. What holds at any time can be told from the files alone. `LogFile.Packed` is the shape that
the files of a journal always have.

## The limit from both sides

That files keep to the limit says little, since they would do so with a line each. The limit is met
from both sides. A file exceeds it only if there is no way to divide the file, because it has a single
line (`LogFile.Fits`). And a file was completed only because the line that came next would have
exceeded it (`LogFile.LeavesNoRoom`), so lines are never spread over more files than necessary.

## Discarded files

All of this is about one file or about two files in a row, so it stays true of the files that are left
when the oldest ones are discarded. It is therefore shown for a `Chronicle`, which discards nothing,
and is handed down to the journal (`LogFile.Packed.rtake`).

## Counts

The count of a file is never more than the bytes of all lines that were accepted. As long as these are
fewer than `2 ^ 64`, a count of 64 bits would neither wrap nor stop.

## Main definitions

* `LogFile.Packed` — the shape of the files of a journal

## Main results

* `LogFile.Packed.push`, `LogFile.Packed.complete` — the two ways to write a line keep the shape
* `Journal.packed_of_calls` — the files of a journal, after any calls
-/

namespace StreamProgress

namespace LogFile

variable {maxBytes : Nat} {archive files : List LogFile} {active f : LogFile} {line : String}

/-! ### Bytes of lines -/

/-- The bytes of lines. -/
def bytesOf : List String → Nat
  | [] => 0
  | line :: lines => line.utf8ByteSize + bytesOf lines

theorem bytesOf_append (lines lines' : List String) :
    bytesOf (lines ++ lines') = bytesOf lines + bytesOf lines' := by
  induction lines with
  | nil => exact (Nat.zero_add _).symm
  | cons line lines ih => rw [List.cons_append, bytesOf, bytesOf, ih, Nat.add_assoc]

/-- A file has no more bytes than all files. -/
theorem bytesOf_le_of_mem (h : f ∈ files) : bytesOf f.lines ≤ bytesOf (files.flatMap lines) := by
  obtain ⟨before, after, rfl⟩ := List.append_of_mem h
  rw [List.flatMap_append, List.flatMap_cons, bytesOf_append, bytesOf_append]
  omega

/-! ### The shape of files -/

/-- Whether the count of a file is right, and the file exceeds the limit only with a line that does so
alone. -/
structure Fits (maxBytes : Nat) (f : LogFile) : Prop where
  bytes_eq : f.bytes = bytesOf f.lines
  length_eq : maxBytes < f.bytes → f.lines.length = 1

/-- Whether a file has no room for the first line of another one. -/
def LeavesNoRoom (maxBytes : Nat) (f g : LogFile) : Prop :=
  ∃ line rest, g.lines = line :: rest ∧ maxBytes < f.bytes + line.utf8ByteSize

/-- The shape of completed files, the oldest first, and the one that grows. -/
structure Packed (maxBytes : Nat) (archive : List LogFile) (active : LogFile) : Prop where
  fits : ∀ f ∈ archive ++ [active], f.Fits maxBytes
  /-- No empty file is completed. -/
  lines_ne_nil : ∀ f ∈ archive, f.lines ≠ []
  /-- No file is completed early. -/
  tight : (archive ++ [active]).IsChain (LeavesNoRoom maxBytes)

theorem packed_empty (maxBytes : Nat) : Packed maxBytes [] {} where
  fits := List.forall_mem_singleton.2 ⟨rfl, fun h => absurd h (Nat.not_lt_zero maxBytes)⟩
  lines_ne_nil := nofun
  tight := List.isChain_singleton _

/-- The file that grows has lines if another file was completed. -/
theorem Packed.archive_eq_nil (h : Packed maxBytes archive active) (hactive : active.lines = []) :
    archive = [] := by
  obtain rfl | ⟨older, f, rfl⟩ := archive.eq_nil_or_concat'
  · rfl
  · obtain ⟨-, -, hlink⟩ := List.isChain_append.1 h.tight
    obtain ⟨line, rest, hlines, -⟩ := hlink f List.getLast?_concat active rfl
    rw [hactive] at hlines
    cases hlines

theorem Packed.lines_eq_nil (h : Packed maxBytes archive active) (hactive : active.lines = []) :
    (archive ++ [active]).flatMap lines = [] := by
  rw [h.archive_eq_nil hactive, List.nil_append, List.flatMap_singleton, hactive]

/-! ### Writing a line -/

/-- A line that fits, or the first line of a file. -/
theorem Packed.push (h : Packed maxBytes archive active)
    (hroom : active.bytes + line.utf8ByteSize ≤ maxBytes ∨ active.lines = []) :
    Packed maxBytes archive (active.push line) := by
  obtain ⟨harchive, hactive⟩ := List.forall_mem_append.1 h.fits
  obtain ⟨hcount, -⟩ := List.forall_mem_singleton.1 hactive
  refine ⟨List.forall_mem_append.2 ⟨harchive, List.forall_mem_singleton.2 ⟨?_, ?_⟩⟩,
    h.lines_ne_nil, ?_⟩
  · rw [LogFile.push, bytesOf_append, ← hcount]
    rfl
  · intro hlong
    obtain hfits | hempty := hroom
    · exact absurd hlong (Nat.not_lt.2 hfits)
    · rw [LogFile.push, hempty]
      rfl
  · -- the first line of the active file stays the first
    obtain ⟨hchain, -, hlink⟩ := List.isChain_append.1 h.tight
    refine List.isChain_append.2 ⟨hchain, List.isChain_singleton _, ?_⟩
    rintro f hf _ ⟨⟩
    obtain ⟨first, rest, hlines, hlt⟩ := hlink f hf active rfl
    exact ⟨first, rest ++ [line], by rw [LogFile.push, hlines, List.cons_append], hlt⟩

/-- A line that does not fit completes the active file and starts a new one. -/
theorem Packed.complete (h : Packed maxBytes archive active)
    (hroom : ¬(active.bytes + line.utf8ByteSize ≤ maxBytes ∨ active.lines = [])) :
    Packed maxBytes (archive ++ [active]) (({} : LogFile).push line) := by
  obtain ⟨hlong, hlines⟩ := not_or.1 hroom
  refine ⟨List.forall_mem_append.2 ⟨h.fits, List.forall_mem_singleton.2 ⟨?_, fun _ => rfl⟩⟩,
    List.forall_mem_append.2 ⟨h.lines_ne_nil, List.forall_mem_singleton.2 hlines⟩, ?_⟩
  · exact Nat.add_comm 0 line.utf8ByteSize
  · refine List.isChain_append.2 ⟨h.tight, List.isChain_singleton _, ?_⟩
    rintro f hf _ ⟨⟩
    obtain rfl : active = f := by simpa using hf
    exact ⟨line, [], rfl, Nat.not_le.1 hlong⟩

/-- Discarding the oldest files keeps the shape. -/
theorem Packed.rtake (h : Packed maxBytes archive active) (n : Nat) :
    Packed maxBytes (archive.rtake n) active := by
  have hsuffix : archive.rtake n <:+ archive := List.drop_suffix _ _
  obtain ⟨discarded, hdiscarded⟩ := hsuffix
  have hfiles : archive.rtake n ++ [active] <:+ archive ++ [active] :=
    ⟨discarded, by rw [← List.append_assoc, hdiscarded]⟩
  exact ⟨fun f hf => h.fits f (hfiles.subset hf),
    fun f hf => h.lines_ne_nil f (List.mem_of_mem_drop hf), h.tight.suffix hfiles⟩

end LogFile

open LogFile (Packed bytesOf)

/-! ### After any calls -/

namespace Chronicle

open Journal (Call)

variable {c : Chronicle}

theorem packed_write (h : Packed c.maxBytes c.archive c.active) (line : String) :
    Packed c.maxBytes (c.write line).archive (c.write line).active := by
  rw [write]
  split
  · rename_i hroom
    exact h.push hroom
  · rename_i hroom
    exact h.complete hroom

theorem packed_perform (h : Packed c.maxBytes c.archive c.active) (call : Call) :
    Packed c.maxBytes (c.perform call).archive (c.perform call).active := by
  cases call with
  | log entry =>
    rw [perform]
    split
    · exact packed_write h (entry.line c.speaker)
    · exact h
  | setLevel level => exact h

theorem maxBytes_perform (c : Chronicle) (call : Call) :
    (c.perform call).maxBytes = c.maxBytes := by
  cases call with
  | log entry =>
    rw [perform]
    split
    · rw [write]
      split <;> rfl
    · rfl
  | setLevel level => rfl

theorem packed_performAll (h : Packed c.maxBytes c.archive c.active) (calls : List Call) :
    Packed c.maxBytes (c.performAll calls).archive (c.performAll calls).active := by
  induction calls generalizing c with
  | nil => exact h
  | cons call calls ih =>
    have hcall := packed_perform h call
    rw [← maxBytes_perform c call] at hcall ⊢
    exact ih hcall

end Chronicle

namespace Journal

/-- **The files of a journal are packed.** Start a journal with any retention, and offer it entries and
set its level in any order.

* The count of every file is the bytes of its lines, and no count is more than the bytes of all lines
  that were accepted.
* No archived file is empty, and the active one is empty only if no line was accepted.
* There are at most as many archived files as are to be kept.
* A file that exceeds the limit has one line, and of two files in a row the first one has no room for
  the first line of the second one.

No limit is excluded: with a limit of zero bytes every line has a file to itself, and with none to be
kept there is only the active file. -/
theorem packed_of_calls (speaker : String) (retention : Retention) (level : Level)
    (calls : List Call) :
    let j := (start speaker retention level).performAll calls
    let lines := accepted speaker level calls
    Packed retention.maxBytes j.archive j.active ∧ (∀ f ∈ j.files, f.bytes ≤ bytesOf lines) ∧
      (j.active.lines = [] ↔ lines = []) ∧ j.archive.length ≤ retention.maxFiles := by
  intro j lines
  let c := (Chronicle.start speaker retention.maxBytes level).performAll calls
  have hkeeps : KeepsNewest retention.maxFiles j c :=
    (keepsNewest_start speaker retention level).performAll calls
  have hpacked : Packed retention.maxBytes c.archive c.active :=
    Chronicle.packed_performAll (c := .start speaker retention.maxBytes level)
      (LogFile.packed_empty retention.maxBytes) calls
  have hlines : c.lines = lines :=
    Chronicle.lines_performAll (.start speaker retention.maxBytes level) calls
  have hfiles : ∀ f ∈ j.files, f ∈ c.files := fun f hf => List.mem_of_mem_drop (hkeeps.files ▸ hf)
  rw [hkeeps.archive, hkeeps.active]
  refine ⟨hpacked.rtake retention.maxFiles, ?_, ⟨?_, ?_⟩, ?_⟩
  · intro f hf
    rw [(hpacked.fits f (hfiles f hf)).bytes_eq, ← hlines]
    exact LogFile.bytesOf_le_of_mem (hfiles f hf)
  · intro hactive
    rw [← hlines]
    exact hpacked.lines_eq_nil hactive
  · intro hnone
    rw [← hlines] at hnone
    exact List.flatMap_eq_nil_iff.1 hnone c.active (List.mem_append_right _ (List.mem_singleton_self _))
  · rw [List.rtake, List.length_drop]
    omega

/-- Lines of 64 bytes: two of them fit into 128 bytes, and into one byte less they do not. -/
example :
    let calls : List Call := [.log ⟨1, .info, "s", "m", none⟩, .log ⟨2, .info, "s", "m", none⟩,
      .log ⟨3, .info, "s", "m", none⟩]
    let counts := fun maxBytes =>
      ((start "m" ⟨maxBytes, 4⟩ .info).performAll calls).files.map fun f =>
        (f.lines.length, f.bytes)
    (counts 128, counts 127) = ([(2, 128), (1, 64)], [(1, 64), (1, 64), (1, 64)]) := by
  rfl

end Journal

end StreamProgress
