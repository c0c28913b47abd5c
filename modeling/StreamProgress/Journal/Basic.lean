import StreamProgress.Journal.Entry

/-!
# Journals

A `Journal` keeps the lines of the entries that were recorded, in files of limited size. There is
one active file that grows, and a limited number of archived files before it.

A line goes into the active file if it still fits. Otherwise the active file is archived and the
line starts a new one; if there are too many archived files then, the oldest are discarded. An
empty file is never archived, so a line that is longer than the limit has a file to itself.

## Main definitions

* `Journal.record` — record an entry, unless it is below the level of the journal
* `Journal.files`, `Journal.lines` — what the journal holds, the oldest first
-/

namespace StreamProgress

/-- When files are archived and how many are kept. -/
structure Retention where
  /-- The size that a file should not exceed, in bytes. -/
  maxBytes : Nat := 1048576
  /-- How many archived files are kept beside the active one. -/
  maxFiles : Nat := 4
  deriving DecidableEq, Repr

/-- A file of a journal. -/
structure LogFile where
  /-- The lines, the oldest first. -/
  lines : List String := []
  /-- The bytes of all the lines. -/
  bytes : Nat := 0
  deriving DecidableEq, Repr

namespace LogFile

/-- The file with one more line. -/
def push (f : LogFile) (line : String) : LogFile :=
  ⟨f.lines ++ [line], f.bytes + line.utf8ByteSize⟩

end LogFile

/-- The lines recorded for one module. -/
structure Journal where
  /-- The name of the module that the journal speaks for. -/
  speaker : String
  retention : Retention
  /-- Entries below this level are not recorded. -/
  level : Level
  /-- The files that were completed, the oldest first. -/
  archive : List LogFile
  /-- The file that grows. -/
  active : LogFile
  deriving DecidableEq, Repr

namespace Journal

/-- A journal without lines. -/
def start (speaker : String) (retention : Retention) (level : Level) : Journal :=
  ⟨speaker, retention, level, [], {}⟩

/-- The journal with another level. -/
def setLevel (j : Journal) (level : Level) : Journal := { j with level }

/-- Whether entries of a level are recorded. -/
def enabled (j : Journal) (level : Level) : Bool := j.level ≤ level

/-- The newest of the archived files, as many as are kept. -/
def keepNewest (maxFiles : Nat) (archive : List LogFile) : List LogFile :=
  archive.drop (archive.length - maxFiles)

/-- The journal with an active file that has room for `bytes` more, if that can be had. -/
def makeRoom (j : Journal) (bytes : Nat) : Journal :=
  if j.active.bytes + bytes ≤ j.retention.maxBytes ∨ j.active.lines = [] then j
  else
    { j with
      archive := keepNewest j.retention.maxFiles (j.archive ++ [j.active])
      active := {} }

/-- The journal with one more line. -/
def write (j : Journal) (line : String) : Journal :=
  let j := j.makeRoom line.utf8ByteSize
  { j with active := j.active.push line }

/-- The journal after an entry was offered to it. -/
def record (j : Journal) (e : Entry) : Journal :=
  if j.enabled e.level then j.write (e.line j.speaker) else j

/-- The files that are kept, the oldest first and the active one last. -/
def files (j : Journal) : List LogFile := j.archive ++ [j.active]

/-- The lines that are kept, the oldest first. -/
def lines (j : Journal) : List String := j.files.flatMap LogFile.lines

end Journal

end StreamProgress
