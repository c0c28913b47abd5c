import StreamProgress.Journal.Basic

/-!
# The lines that a journal keeps

A journal forgets from the front only. To make room it archives its active file, which keeps all
lines, and discards the oldest of the archived files, which leaves a suffix of them. So what is kept
after an entry is a suffix of what was kept before and the line of the entry, whatever the limits are,
also if no archived file is kept at all.

## Main results

* `Journal.lines_record_suffix` — what is kept after an entry was offered
-/

namespace StreamProgress

namespace Journal

@[simp] theorem speaker_makeRoom (j : Journal) (bytes : Nat) :
    (j.makeRoom bytes).speaker = j.speaker := by
  rw [makeRoom]
  split <;> rfl

@[simp] theorem speaker_record (j : Journal) (e : Entry) : (j.record e).speaker = j.speaker := by
  rw [record]
  split
  · rw [write, speaker_makeRoom]
  · rfl

theorem lines_eq (j : Journal) : j.lines = j.archive.flatMap LogFile.lines ++ j.active.lines := by
  rw [lines, files, List.flatMap_append, List.flatMap_singleton]

/-- Room is made at the front. -/
theorem lines_makeRoom_suffix (j : Journal) (bytes : Nat) : (j.makeRoom bytes).lines <:+ j.lines := by
  rw [makeRoom]
  split
  · exact List.suffix_refl j.lines
  · obtain ⟨discarded, h⟩ : keepNewest j.retention.maxFiles j.files <:+ j.files :=
      List.drop_suffix _ _
    have hlines : j.lines = discarded.flatMap LogFile.lines ++
        (keepNewest j.retention.maxFiles j.files).flatMap LogFile.lines := by
      rw [← List.flatMap_append, h, lines]
    refine ⟨discarded.flatMap LogFile.lines, ?_⟩
    rw [hlines, lines_eq, List.append_nil, files]

/-- **What is kept after an entry is a suffix of what was kept before it and its line,** if the entry
is recorded, and what was kept before it if it is not. -/
theorem lines_record_suffix (j : Journal) (e : Entry) :
    (j.record e).lines <:+ j.lines ++ if j.level ≤ e.level then [e.line j.speaker] else [] := by
  rw [record, enabled]
  by_cases hlevel : j.level ≤ e.level
  · rw [if_pos (decide_eq_true hlevel), if_pos hlevel, write, lines_eq]
    obtain ⟨discarded, h⟩ := lines_makeRoom_suffix j (e.line j.speaker).utf8ByteSize
    refine ⟨discarded, ?_⟩
    rw [← h, lines_eq]
    simp only [LogFile.push, List.append_assoc]
  · rw [if_neg (by simpa using hlevel), if_neg hlevel]
    exact ⟨[], (List.append_nil j.lines).symm⟩

end Journal

end StreamProgress
