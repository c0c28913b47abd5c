import Mathlib.Computability.Language
import StreamProgress.Json.Reader

/-!
# The texts of a value

A value has many texts: blanks may stand around every token, and a character of a string may be
written as itself or by an escape. Here the texts of a value are a language, put together from the
languages of its parts, and nothing is said about how they are read.

## What is not part of the grammar

Which members an object has and in which order is no matter of spelling, since `Json` keeps them as
they stand. How deep brackets may be nested is a limit of a reader. How large a number may be does
show here, in that a number which is too large for a double is no value and so has no spelling.

## Main definitions

* `Json.blanks`, `mark`, `bracketed` — what stands between and around values
* `Json.Literal.Grammatical` — the spellings of numbers
* `Json.StringLiteral.spellings` — the spellings of a string
* `Json.spellings`, `documents` — the spellings of a value, without and with blanks around it
-/

namespace StreamProgress

namespace Json

/-- Induction along the tree of a value. -/
@[induction_eliminator]
theorem recEntries {motive : Json → Prop} (null : motive .null) (bool : ∀ b, motive (.bool b))
    (number : ∀ n, motive (.number n)) (string : ∀ s, motive (.string s))
    (array : ∀ items, (∀ v ∈ items, motive v) → motive (.array items))
    (object : ∀ members : List (String × Json), (∀ m ∈ members, motive m.2) →
      motive (.object members)) (v : Json) : motive v :=
  @Json.rec motive (fun items => ∀ v ∈ items, motive v)
    (fun members => ∀ m ∈ members, motive m.2) (fun m => motive m.2)
    null bool number string array object nofun
    (fun _ _ hv hitems => List.forall_mem_cons.2 ⟨hv, hitems⟩) nofun
    (fun _ _ hm hmembers => List.forall_mem_cons.2 ⟨hm, hmembers⟩) (fun _ _ hv => hv) v

/-! ### Blanks and brackets -/

/-- Blanks, or nothing. -/
def blanks : Language Char := {s | ∀ c ∈ s, isBlank c = true}

/-- A character that may have blanks in front of it. -/
def mark (c : Char) : Language Char := blanks * {[c]}

/-- What follows an entry of a bracket: the other entries, each behind a comma, and the closing
bracket. -/
def afterEntry (close : Char) : List (Language Char) → Language Char
  | [] => mark close
  | entry :: entries => mark ',' * (blanks * entry) * afterEntry close entries

/-- The entries of a bracket, up to and with the closing bracket. -/
def bracketed (close : Char) : List (Language Char) → Language Char
  | [] => mark close
  | entry :: entries => blanks * entry * afterEntry close entries

/-! ### Numbers -/

/-- Decimal digits, at least one. -/
def Digits (s : List Char) : Prop := s ≠ [] ∧ ∀ c ∈ s, c.isDigit = true

/-- The letters of an exponent with what may stand between a letter and the digits. -/
def exponentMarks : List (List Char) :=
  [['e'], ['E'], ['e', '+'], ['e', '-'], ['E', '+'], ['E', '-']]

/-- Whether the parts of a literal make a number. No zero stands before another digit. -/
structure Literal.Grammatical (l : Literal) : Prop where
  whole : Digits l.whole
  whole_of_zero : l.whole.head? = some '0' → l.whole = ['0']
  fraction : ∀ digits ∈ l.fraction, Digits digits
  exponent : ∀ e ∈ l.exponent, e.1 ∈ exponentMarks ∧ Digits e.2

/-- A point with the digits after it, if there is one. -/
def fractionText : Option (List Char) → List Char
  | none => []
  | some digits => '.' :: digits

/-- An exponent, if there is one. -/
def exponentText : Option (List Char × List Char) → List Char
  | none => []
  | some (mark, digits) => mark ++ digits

theorem Literal.spelling_eq (l : Literal) : l.spelling =
    (if l.negative then ['-'] else []) ++
      (l.whole ++ (fractionText l.fraction ++ exponentText l.exponent)) := by
  rw [spelling, List.append_assoc, List.append_assoc]
  cases l.fraction <;> cases l.exponent <;> rfl

/-- The spellings of a number. -/
def Number.spellings (n : Number) : Language Char :=
  {s | ∃ l : Literal, l.Grammatical ∧ l.value = .ok n ∧ l.spelling = s}

/-! ### Strings -/

namespace StringLiteral

/-- The ways in which a character can stand in a string: as itself, by an escape of one letter, by
its code unit, or by the two code units of a surrogate pair. -/
inductive SpellsChar : Char → List Char → Prop
  | raw {c : Char} (hquote : c ≠ '"') (hbackslash : c ≠ '\\') (hcontrol : 0x20 ≤ c.toNat) :
    SpellsChar c [c]
  | letter {e c : Char} (he : letterEscape e = some c) : SpellsChar c ['\\', e]
  | unit {a b c d : Char} {n : Nat} (hn : hexUnit a b c d = some n)
      (hleading : isLeading n = false) (htrailing : isTrailing n = false) :
    SpellsChar (Char.ofNat n) ['\\', 'u', a, b, c, d]
  | pair {a b c d e f g h : Char} {m n : Nat} (hm : hexUnit a b c d = some m)
      (hn : hexUnit e f g h = some n) (hleading : isLeading m = true)
      (htrailing : isTrailing n = true) :
    SpellsChar (ofSurrogates m n) ['\\', 'u', a, b, c, d, '\\', 'u', e, f, g, h]

/-- The spellings of a character. -/
def charSpellings (c : Char) : Language Char := {s | SpellsChar c s}

/-- The spellings of characters, up to and with the closing quote. -/
def spellingsFrom : List Char → Language Char
  | [] => {['"']}
  | c :: chars => charSpellings c * spellingsFrom chars

/-- The spellings of a string. -/
def spellings (s : String) : Language Char := {['"']} * spellingsFrom s.toList

end StringLiteral

/-! ### Values -/

/-- An entry with a name in front of it. -/
def named (name : String) (entry : Language Char) : Language Char :=
  StringLiteral.spellings name * (mark ':' * (blanks * entry))

mutual

/-- The spellings of a value. -/
def spellings : Json → Language Char
  | .null => {['n', 'u', 'l', 'l']}
  | .bool true => {['t', 'r', 'u', 'e']}
  | .bool false => {['f', 'a', 'l', 's', 'e']}
  | .number n => n.spellings
  | .string s => StringLiteral.spellings s
  | .array items => {['[']} * bracketed ']' (itemSpellings items)
  | .object members => {['{']} * bracketed '}' (memberSpellings members)

/-- The spellings of each item. -/
def itemSpellings : List Json → List (Language Char)
  | [] => []
  | v :: items => spellings v :: itemSpellings items

/-- The spellings of each member. -/
def memberSpellings : List (String × Json) → List (Language Char)
  | [] => []
  | (name, v) :: members => named name (spellings v) :: memberSpellings members

end

/-- The texts that consist of a value. -/
def documents (v : Json) : Language Char := blanks * v.spellings * blanks

/-- The spellings of a member. -/
def spellingsOf (m : String × Json) : Language Char := named m.1 m.2.spellings

theorem itemSpellings_eq (items : List Json) : itemSpellings items = items.map spellings := by
  induction items with
  | nil => rfl
  | cons v items ih => rw [itemSpellings, ih, List.map_cons]

theorem memberSpellings_eq (members : List (String × Json)) :
    memberSpellings members = members.map spellingsOf := by
  induction members with
  | nil => rfl
  | cons m members ih => rw [memberSpellings, ih, List.map_cons, spellingsOf]

/-! ### Blanks in front of a text -/

theorem nil_mem_blanks : [] ∈ blanks := by
  rintro c ⟨⟩

theorem mem_blanks_mul {l : Language Char} {s : List Char} (h : s ∈ l) : s ∈ blanks * l :=
  ⟨[], nil_mem_blanks, s, h, rfl⟩

theorem singleton_mem_mark (c : Char) : [c] ∈ mark c := mem_blanks_mul rfl

/-- Blanks are passed over. -/
theorem skipBlank_append {b : List Char} (hb : b ∈ blanks) (s : List Char) :
    skipBlank (b ++ s) = skipBlank s :=
  List.dropWhile_append_of_pos hb

theorem skipBlank_blanks {b : List Char} (hb : b ∈ blanks) : skipBlank b = [] := by
  have h := skipBlank_append hb []
  rwa [List.append_nil] at h

theorem skipBlank_cons {c : Char} (hc : isBlank c = false) (s : List Char) :
    skipBlank (c :: s) = c :: s := by
  rw [skipBlank, List.dropWhile_cons_of_neg]
  rw [hc]
  decide

/-- A mark is found behind its blanks. -/
theorem skipBlank_mark {c : Char} {s : List Char} (hs : s ∈ mark c) (hc : isBlank c = false)
    (rest : List Char) : skipBlank (s ++ rest) = c :: rest := by
  obtain ⟨b, hb, _, rfl, rfl⟩ := hs
  rw [List.append_assoc, skipBlank_append hb]
  exact skipBlank_cons hc rest

end Json

end StreamProgress
