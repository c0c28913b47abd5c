import StreamProgress.Json.Fault

/-!
# Strings in JSON text

`StringLiteral.write` puts a string between quotes and escapes what has to be escaped: the quote,
the backslash and the characters below `U+0020`. `StringLiteral.scan` reads any JSON spelling of
a string, with every escape and with surrogate pairs, and refuses what is none: a raw control
character, an unknown escape, half a surrogate pair.

Writing takes the text that follows, so that a written string is put in front of it and no text
is ever appended to another.

## Implementation notes

A code unit is written with four hexadecimal digits. If the text ends within them it is
truncated, but what "ends" means is decided on the bytes of the text: with fewer than four bytes
left the text is truncated whatever they are, a closing quote included, and otherwise a character
that is no digit makes it malformed. `shortUnit` is this rule for fewer than four characters.

## Main results

* `StringLiteral.le_of_mem_write` — a written string holds no character below `U+0020`
-/

namespace StreamProgress

namespace Json

namespace StringLiteral

/-! ### Escapes -/

/-- The value of a hexadecimal digit, in either case. -/
def hexDigit (c : Char) : Option Nat :=
  if '0' ≤ c ∧ c ≤ '9' then some (c.toNat - '0'.toNat)
  else if 'a' ≤ c ∧ c ≤ 'f' then some (c.toNat - 'a'.toNat + 10)
  else if 'A' ≤ c ∧ c ≤ 'F' then some (c.toNat - 'A'.toNat + 10)
  else none

/-- The 16-bit code unit of four hexadecimal digits. -/
def hexUnit (a b c d : Char) : Option Nat :=
  match hexDigit a, hexDigit b, hexDigit c, hexDigit d with
  | some a, some b, some c, some d => some (((a * 16 + b) * 16 + c) * 16 + d)
  | _, _, _, _ => none

/-- What is wrong where fewer than four characters are left for a code unit. -/
def shortUnit (s : List Char) : Fault :=
  if s.foldl (fun n c => n + c.utf8Size) 0 < 4 then .truncated else .malformed

/-- The character of a one-letter escape. -/
def letterEscape (c : Char) : Option Char :=
  if c = '"' then some '"'
  else if c = '\\' then some '\\'
  else if c = '/' then some '/'
  else if c = 'b' then some '\x08'
  else if c = 'f' then some '\x0c'
  else if c = 'n' then some '\n'
  else if c = 'r' then some '\r'
  else if c = 't' then some '\t'
  else none

/-- Whether a code unit is the first half of a surrogate pair. -/
def isLeading (n : Nat) : Bool := 0xD800 ≤ n && n ≤ 0xDBFF

/-- Whether a code unit is the second half of a surrogate pair. -/
def isTrailing (n : Nat) : Bool := 0xDC00 ≤ n && n ≤ 0xDFFF

/-- The character of a surrogate pair. -/
def ofSurrogates (leading trailing : Nat) : Char :=
  Char.ofNat ((leading - 0xD800) * 0x400 + (trailing - 0xDC00) + 0x10000)

/-! ### Scanning -/

/-- The characters up to the closing quote, put behind those of `acc`, and the text after it. -/
def scanFrom (acc : List Char) : List Char → Except Fault (List Char × List Char)
  | [] => .error .truncated
  | '"' :: rest => .ok (acc.reverse, rest)
  | '\\' :: rest =>
    match rest with
    | [] => .error .truncated
    | 'u' :: rest =>
      match rest with
      | a :: b :: c :: d :: rest =>
        match hexUnit a b c d with
        | none => .error .malformed
        | some unit =>
          if isTrailing unit then .error .malformed
          else if isLeading unit then
            match rest with
            | [] => .error .truncated
            | '\\' :: rest =>
              match rest with
              | [] => .error .truncated
              | 'u' :: rest =>
                match rest with
                | e :: f :: g :: h :: rest =>
                  match hexUnit e f g h with
                  | none => .error .malformed
                  | some next =>
                    if isTrailing next then scanFrom (ofSurrogates unit next :: acc) rest
                    else .error .malformed
                | short => .error (shortUnit short)
              | _ => .error .malformed
            | _ => .error .malformed
          else scanFrom (Char.ofNat unit :: acc) rest
      | short => .error (shortUnit short)
    | c :: rest =>
      match letterEscape c with
      | none => .error .malformed
      | some d => scanFrom (d :: acc) rest
  | c :: rest => if c.toNat < 0x20 then .error .malformed else scanFrom (c :: acc) rest

/-- The string whose opening quote has been read, and the text after its closing quote. -/
def scan (s : List Char) : Except Fault (String × List Char) :=
  match scanFrom [] s with
  | .error e => .error e
  | .ok (chars, rest) => .ok (String.ofList chars, rest)

/-! ### Writing -/

/-- One character of a string, in front of the text that follows. -/
def writeChar (c : Char) (rest : List Char) : List Char :=
  if c = '"' then '\\' :: '"' :: rest
  else if c = '\\' then '\\' :: '\\' :: rest
  else if c = '\x08' then '\\' :: 'b' :: rest
  else if c = '\x0c' then '\\' :: 'f' :: rest
  else if c = '\n' then '\\' :: 'n' :: rest
  else if c = '\r' then '\\' :: 'r' :: rest
  else if c = '\t' then '\\' :: 't' :: rest
  else if c.toNat < 0x20 then
    '\\' :: 'u' :: '0' :: '0' :: (c.toNat / 16).digitChar :: (c.toNat % 16).digitChar :: rest
  else c :: rest

/-- A string between quotes, in front of the text that follows. -/
def write (s : String) (rest : List Char) : List Char :=
  '"' :: s.toList.foldr writeChar ('"' :: rest)

/-! ### What is written -/

/-- The four digits that are written for a control character are read back. -/
theorem hexUnit_control {n : Nat} (h : n < 0x20) :
    hexUnit '0' '0' (n / 16).digitChar (n % 16).digitChar = some n := by
  have all : ∀ k : Fin 0x20, hexUnit '0' '0' (k.val / 16).digitChar (k.val % 16).digitChar =
      some k.val := by decide
  exact all ⟨n, h⟩

theorem le_of_mem_writeChar {c x : Char} {rest : List Char} (h : x ∈ writeChar c rest) :
    0x20 ≤ x.toNat ∨ x ∈ rest := by
  unfold writeChar at h
  iterate 7
    split at h
    · simp only [List.mem_cons] at h
      rcases h with rfl | rfl | h
      · exact .inl (by decide)
      · exact .inl (by decide)
      · exact .inr h
  split at h
  · rename_i hc
    have all : ∀ k : Fin 0x20, 0x20 ≤ (k.val / 16).digitChar.toNat ∧
        0x20 ≤ (k.val % 16).digitChar.toNat := by decide
    have := all ⟨c.toNat, hc⟩
    simp only [List.mem_cons] at h
    rcases h with rfl | rfl | rfl | rfl | rfl | rfl | h
    · exact .inl (by decide)
    · exact .inl (by decide)
    · exact .inl (by decide)
    · exact .inl (by decide)
    · exact .inl this.1
    · exact .inl this.2
    · exact .inr h
  · rename_i hc
    rcases List.mem_cons.1 h with rfl | h
    · exact .inl (Nat.not_lt.1 hc)
    · exact .inr h

/-- Every character of a written string can stand in a line of text. -/
theorem le_of_mem_write {s : String} {x : Char} {rest : List Char} (h : x ∈ write s rest) :
    0x20 ≤ x.toNat ∨ x ∈ rest := by
  rcases List.mem_cons.1 h with rfl | h
  · exact .inl (by decide)
  · generalize s.toList = chars at h
    induction chars with
    | nil =>
      rcases List.mem_cons.1 h with rfl | h
      · exact .inl (by decide)
      · exact .inr h
    | cons c chars ih =>
      rw [List.foldr_cons] at h
      exact (le_of_mem_writeChar h).elim .inl ih

end StringLiteral

end Json

end StreamProgress
