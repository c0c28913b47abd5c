import StreamProgress.Proofs.Json.Number

/-!
# The text that a value is written as

A value is written compactly and in one way, and that text is one of its texts. This is asked of
values whose numbers are all counts, since no other numbers are ever written.

`Json.writeEntries` is the pattern by which both kinds of bracket are written.

## One line

The text of a value may go over several lines, as blanks are free between its tokens, but what is
written has no blanks, and control characters in strings are escaped. So a written value is one line.
A writer puts its output in front of a text, and what is asked of it is that it adds no control
character to that text (`Json.KeepsLine`), which is the form in which writers are put together.

## Main definitions

* `Json.counted` — whether all numbers in a value are counts
* `Json.KeepsLine` — whether a writer adds no control character

## Main results

* `Json.exists_write`, `text_mem_documents` — a value is written in one of its spellings
* `Json.keepsLine_write`, `le_of_mem_text` — a value is written in one line
-/

namespace StreamProgress

namespace Json

mutual

/-- Whether all numbers in a value are counts. -/
def counted : Json → Bool
  | .number (.natural _) => true
  | .number _ => false
  | .array items => itemsCounted items
  | .object members => membersCounted members
  | _ => true

/-- Whether all numbers in the items are counts. -/
def itemsCounted : List Json → Bool
  | [] => true
  | v :: items => counted v && itemsCounted items

/-- Whether all numbers in the members are counts. -/
def membersCounted : List (String × Json) → Bool
  | [] => true
  | (_, v) :: members => counted v && membersCounted members

end

theorem itemsCounted_iff {items : List Json} :
    itemsCounted items = true ↔ ∀ v ∈ items, v.counted = true := by
  induction items with
  | nil => simp [itemsCounted]
  | cons v items ih => simp [itemsCounted, ih]

theorem membersCounted_iff {members : List (String × Json)} :
    membersCounted members = true ↔ ∀ m ∈ members, m.2.counted = true := by
  induction members with
  | nil => simp [membersCounted]
  | cons m members ih => simp [membersCounted, ih]

variable {α : Type} {close : Char}

/-! ### Strings -/

/-- A character is written in one of its spellings. -/
theorem StringLiteral.exists_writeChar (c : Char) :
    ∃ s ∈ charSpellings c, ∀ rest, writeChar c rest = s ++ rest := by
  unfold writeChar
  iterate 7
    split
    · subst_vars
      exact ⟨_, .letter rfl, fun rest => rfl⟩
  split
  · rename_i h
    have hspells := SpellsChar.unit (hexUnit_control h) (by simp [isLeading]; omega)
      (by simp [isTrailing]; omega)
    rw [Char.ofNat_toNat] at hspells
    exact ⟨_, hspells, fun rest => rfl⟩
  · rename_i hquote hbackslash _ _ _ _ _ h
    exact ⟨_, .raw hquote hbackslash (Nat.not_lt.1 h), fun rest => rfl⟩

/-- A string is written in one of its spellings. -/
theorem StringLiteral.exists_write (x : String) (rest : List Char) :
    ∃ s ∈ spellings x, write x rest = s ++ rest := by
  have hchars : ∀ chars : List Char, ∃ s ∈ spellingsFrom chars,
      chars.foldr writeChar ('"' :: rest) = s ++ rest := by
    intro chars
    induction chars with
    | nil => exact ⟨_, rfl, rfl⟩
    | cons c chars ih =>
      obtain ⟨t, ht, hwrite⟩ := exists_writeChar c
      obtain ⟨u, hu, hchars⟩ := ih
      exact ⟨_, ⟨t, ht, u, hu, rfl⟩, by rw [List.foldr_cons, hwrite, hchars, List.append_assoc]⟩
  obtain ⟨s, hs, hwrite⟩ := hchars x.toList
  exact ⟨_, ⟨_, rfl, s, hs, rfl⟩, by rw [write, hwrite]; rfl⟩

/-! ### Entries of a bracket -/

/-- Entries with commas between them and the closing bracket behind them. -/
def writeEntries (close : Char) (write : α → List Char → List Char) :
    List α → List Char → List Char
  | [], rest => close :: rest
  | [a], rest => write a (close :: rest)
  | a :: b :: entries, rest => write a (',' :: writeEntries close write (b :: entries) rest)

/-- A member in front of the text that follows. -/
def writeMember (m : String × Json) (rest : List Char) : List Char :=
  StringLiteral.write m.1 (':' :: m.2.write rest)

theorem writeItems_eq (items : List Json) (rest : List Char) :
    writeItems items rest = writeEntries ']' write items rest := by
  induction items with
  | nil => rfl
  | cons v items ih =>
    cases items with
    | nil => rfl
    | cons w items => rw [writeItems, writeEntries, ih]

theorem writeMembers_eq (members : List (String × Json)) (rest : List Char) :
    writeMembers members rest = writeEntries '}' writeMember members rest := by
  induction members with
  | nil => rfl
  | cons m members ih =>
    cases members with
    | nil => rfl
    | cons n members => rw [writeMembers, writeEntries, ih, writeMember]

/-- Entries that are written in one of their spellings each. -/
theorem exists_writeEntries {write : α → List Char → List Char} {spelled : α → Language Char}
    {entries : List α}
    (h : ∀ a ∈ entries, ∀ rest, ∃ s ∈ spelled a, write a rest = s ++ rest) (rest : List Char) :
    ∃ s ∈ bracketed close (entries.map spelled), writeEntries close write entries rest = s ++ rest := by
  induction entries with
  | nil => exact ⟨_, singleton_mem_mark close, rfl⟩
  | cons a entries ih =>
    obtain ⟨ha, hentries⟩ := List.forall_mem_cons.1 h
    cases entries with
    | nil =>
      obtain ⟨s, hs, hwrite⟩ := ha (close :: rest)
      refine ⟨_, ⟨s, mem_blanks_mul hs, _, singleton_mem_mark close, rfl⟩, ?_⟩
      rw [writeEntries, hwrite, List.append_assoc]
      rfl
    | cons b entries =>
      obtain ⟨_, ⟨t, ht, u, hu, rfl⟩, hrest⟩ := ih hentries
      obtain ⟨s, hs, hwrite⟩ := ha (',' :: writeEntries close write (b :: entries) rest)
      refine ⟨_, ⟨s, mem_blanks_mul hs, _, ⟨_, ⟨_, singleton_mem_mark ',', t, ht, rfl⟩, u, hu,
        rfl⟩, rfl⟩, ?_⟩
      rw [writeEntries, hwrite, hrest]
      simp

/-! ### Values -/

/-- **A value is written in one of its spellings,** if all its numbers are counts. -/
theorem exists_write {v : Json} (hcounted : v.counted = true) (rest : List Char) :
    ∃ s ∈ v.spellings, v.write rest = s ++ rest := by
  induction v generalizing rest with
  | null => exact ⟨_, rfl, rfl⟩
  | bool b => cases b <;> exact ⟨_, rfl, rfl⟩
  | string x => exact StringLiteral.exists_write x rest
  | number n =>
    cases n with
    | negative n => cases hcounted
    | real literal => cases hcounted
    | natural n => exact ⟨_, toDigits_mem_spellings n, rfl⟩
  | array items ih =>
    rw [counted, itemsCounted_iff] at hcounted
    obtain ⟨s, hs, hwrite⟩ := exists_writeEntries
      (fun v hv rest => ih v hv (hcounted v hv) rest) rest
    rw [← itemSpellings_eq] at hs
    exact ⟨_, ⟨_, rfl, s, hs, rfl⟩, by rw [write, writeItems_eq, hwrite]; rfl⟩
  | object members ih =>
    rw [counted, membersCounted_iff] at hcounted
    have hmember : ∀ m ∈ members, ∀ rest, ∃ s ∈ spellingsOf m, writeMember m rest = s ++ rest := by
      intro m hm rest
      obtain ⟨t, ht, hvalue⟩ := ih m hm (hcounted m hm) rest
      obtain ⟨s, hs, hname⟩ := StringLiteral.exists_write m.1 (':' :: m.2.write rest)
      refine ⟨_, ⟨s, hs, _, ⟨_, singleton_mem_mark ':', t, mem_blanks_mul ht, rfl⟩, rfl⟩, ?_⟩
      rw [writeMember, hname, hvalue]
      simp
    obtain ⟨s, hs, hwrite⟩ := exists_writeEntries hmember rest
    rw [← memberSpellings_eq] at hs
    exact ⟨_, ⟨_, rfl, s, hs, rfl⟩, by rw [write, writeMembers_eq, hwrite]; rfl⟩

theorem toList_text (v : Json) : v.text.toList = v.write [] := String.toList_ofList

/-- The text of a value is one of its texts. -/
theorem text_mem_documents {v : Json} (hcounted : v.counted = true) :
    v.text.toList ∈ v.documents := by
  obtain ⟨s, hs, hwrite⟩ := exists_write hcounted []
  refine ⟨s, mem_blanks_mul hs, [], nil_mem_blanks, ?_⟩
  rw [toList_text, hwrite]

/-! ### One line -/

/-- Whether a writer puts no control character in front of a text. -/
def KeepsLine (write : List Char → List Char) : Prop :=
  ∀ rest, ∀ c ∈ write rest, 0x20 ≤ c.toNat ∨ c ∈ rest

theorem keepsLine_append {s : List Char} (h : ∀ c ∈ s, 0x20 ≤ c.toNat) :
    KeepsLine fun rest => s ++ rest := by
  intro rest c hc
  exact (List.mem_append.1 hc).imp_left (h c)

theorem keepsLine_cons {c : Char} (h : 0x20 ≤ c.toNat) : KeepsLine fun rest => c :: rest :=
  keepsLine_append (List.forall_mem_singleton.2 h)

theorem KeepsLine.comp {write next : List Char → List Char} (h : KeepsLine write)
    (hnext : KeepsLine next) : KeepsLine fun rest => write (next rest) := by
  intro rest c hc
  exact (h (next rest) c hc).elim .inl (hnext rest c)

theorem keepsLine_writeEntries {write : α → List Char → List Char} {entries : List α}
    (hclose : 0x20 ≤ close.toNat) (h : ∀ a ∈ entries, KeepsLine (write a)) :
    KeepsLine (writeEntries close write entries) := by
  induction entries with
  | nil => exact keepsLine_cons hclose
  | cons a entries ih =>
    obtain ⟨ha, hentries⟩ := List.forall_mem_cons.1 h
    cases entries with
    | nil => exact ha.comp (keepsLine_cons hclose)
    | cons b entries =>
      have hcomma : 0x20 ≤ ','.toNat := by decide
      exact ha.comp ((keepsLine_cons hcomma).comp (ih hentries))

/-- **A value is written without control characters,** if all its numbers are counts. -/
theorem keepsLine_write {v : Json} (hcounted : v.counted = true) : KeepsLine v.write := by
  induction v with
  | null => exact keepsLine_append (by simp : ∀ c ∈ ['n', 'u', 'l', 'l'], 0x20 ≤ c.toNat)
  | bool b =>
    cases b with
    | false => exact keepsLine_append (by simp : ∀ c ∈ ['f', 'a', 'l', 's', 'e'], 0x20 ≤ c.toNat)
    | true => exact keepsLine_append (by simp : ∀ c ∈ ['t', 'r', 'u', 'e'], 0x20 ≤ c.toNat)
  | string x => exact fun _ _ => StringLiteral.le_of_mem_write
  | number n =>
    cases n with
    | negative n => cases hcounted
    | real literal => cases hcounted
    | natural n =>
      refine keepsLine_append fun c hc => ?_
      have hdigit := (digits_toDigits n.toNat).2 c hc
      rw [Char.isDigit, Bool.and_eq_true, decide_eq_true_iff] at hdigit
      have hle : 48 ≤ c.toNat := UInt32.le_iff_toNat_le.1 hdigit.1
      exact Nat.le_trans (by decide) hle
  | array items ih =>
    rw [counted, itemsCounted_iff] at hcounted
    have hitems : KeepsLine (writeEntries ']' write items) :=
      keepsLine_writeEntries (by decide) fun v hv => ih v hv (hcounted v hv)
    have hopen : 0x20 ≤ '['.toNat := by decide
    intro rest
    rw [write, writeItems_eq]
    exact (keepsLine_cons hopen).comp hitems rest
  | object members ih =>
    rw [counted, membersCounted_iff] at hcounted
    have hcolon : 0x20 ≤ ':'.toNat := by decide
    have hmember : ∀ m ∈ members, KeepsLine (writeMember m) := by
      intro m hm
      have hname : KeepsLine (StringLiteral.write m.1) := fun _ _ => StringLiteral.le_of_mem_write
      exact hname.comp ((keepsLine_cons hcolon).comp (ih m hm (hcounted m hm)))
    have hopen : 0x20 ≤ '\x7b'.toNat := by decide
    intro rest
    rw [write, writeMembers_eq]
    exact (keepsLine_cons hopen).comp (keepsLine_writeEntries (by decide) hmember) rest

/-- The text of a value is one line. -/
theorem le_of_mem_text {v : Json} (hcounted : v.counted = true) {c : Char}
    (hc : c ∈ v.text.toList) : 0x20 ≤ c.toNat := by
  rw [toList_text] at hc
  exact (keepsLine_write hcounted [] c hc).resolve_right (List.not_mem_nil)

end Json

end StreamProgress
