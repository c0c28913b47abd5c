import StreamProgress.Json.Printer
import StreamProgress.Proofs.Except
import StreamProgress.Proofs.Json.Spelling

/-!
# Reading a number

A number is read from any of its spellings, provided that it has ended: a digit, a point or an
exponent behind it would make it another number.

## Main results

* `Json.scanNumber_append` — a spelling is read as what it is worth
* `Json.toDigits_mem_spellings` — a written count is one of its spellings
-/

namespace StreamProgress

namespace Json

/-- Whether a number that stands in front of a text has ended. -/
def EndsNumber (rest : List Char) : Prop :=
  ∀ c ∈ rest.head?, c.isDigit = false ∧ c ≠ '.' ∧ c ≠ 'e' ∧ c ≠ 'E'

theorem EndsNumber.cons {c : Char} (hdigit : c.isDigit = false) (hpoint : c ≠ '.') (he : c ≠ 'e')
    (hE : c ≠ 'E') (rest : List Char) : EndsNumber (c :: rest) := by
  rintro _ ⟨⟩
  exact ⟨hdigit, hpoint, he, hE⟩

theorem ne_of_isDigit {c d : Char} (hc : c.isDigit = true) (hd : d.isDigit = false) : c ≠ d :=
  ne_of_apply_ne Char.isDigit (by rw [hc, hd]; decide)

variable {l : Literal} {digits rest : List Char}

/-! ### The parts of a number -/

theorem scanDigits_append (hdigits : Digits digits) (hrest : ∀ c ∈ rest.head?, c.isDigit = false) :
    scanDigits (digits ++ rest) = .ok (digits, rest) := by
  have htake : rest.takeWhile Char.isDigit = [] ∧ rest.dropWhile Char.isDigit = rest := by
    cases rest with
    | nil => exact ⟨rfl, rfl⟩
    | cons c rest =>
      have hc := hrest c rfl
      simp [hc]
  rw [scanDigits, List.takeWhile_append_of_pos hdigits.2, List.dropWhile_append_of_pos hdigits.2,
    htake.1, htake.2, List.append_nil]
  cases digits with
  | nil => exact absurd rfl hdigits.1
  | cons c digits => rfl

theorem scanWhole_append (hdigits : Digits digits) (hzero : digits.head? = some '0' → digits = ['0'])
    (hrest : ∀ c ∈ rest.head?, c.isDigit = false) :
    scanWhole (digits ++ rest) = .ok (digits, rest) := by
  have hnot : ¬(digits.head? = some '0' ∧ digits ≠ ['0']) := fun h => h.2 (hzero h.1)
  rw [scanWhole, scanDigits_append hdigits hrest, Except.ok_bind]
  simp only [if_neg hnot]
  rfl

theorem scanFraction_append {fraction : Option (List Char)} (h : ∀ digits ∈ fraction, Digits digits)
    (hrest : ∀ c ∈ rest.head?, c.isDigit = false ∧ c ≠ '.') :
    scanFraction (fractionText fraction ++ rest) = .ok (fraction, rest) := by
  cases fraction with
  | none =>
    cases rest with
    | nil => rfl
    | cons c rest =>
      have hc := (hrest c rfl).2
      rw [fractionText, List.nil_append, scanFraction]
      rintro s ⟨⟩
      exact hc rfl
  | some digits =>
    have hscan := scanDigits_append (h digits rfl) fun c hc => (hrest c hc).1
    rw [fractionText, List.cons_append, scanFraction, hscan]
    rfl

/-- The sign of an exponent is told from its digits. -/
theorem scanSign_append (hdigits : Digits digits) (sign : List Char)
    (hsign : sign ∈ [[], ['+'], ['-']]) :
    scanSign (sign ++ (digits ++ rest)) = (sign, digits ++ rest) := by
  simp only [List.mem_cons, List.not_mem_nil, or_false] at hsign
  rcases hsign with rfl | rfl | rfl
  · obtain ⟨c, tail, rfl⟩ := List.exists_cons_of_ne_nil hdigits.1
    have hc := hdigits.2 c (.head _)
    rw [List.nil_append, List.cons_append, scanSign]
    · exact fun s hs => ne_of_isDigit hc rfl (List.cons.inj hs).1
    · exact fun s hs => ne_of_isDigit hc rfl (List.cons.inj hs).1
  · rfl
  · rfl

theorem scanExponent_append {exponent : Option (List Char × List Char)}
    (h : ∀ e ∈ exponent, e.1 ∈ exponentMarks ∧ Digits e.2) (hrest : EndsNumber rest) :
    scanExponent (exponentText exponent ++ rest) = .ok (exponent, rest) := by
  cases exponent with
  | none =>
    cases rest with
    | nil => rfl
    | cons c rest =>
      have hc := (hrest c rfl).2.2
      rw [exponentText, List.nil_append, scanExponent, if_neg (by simp [hc.1, hc.2])]
  | some e =>
    obtain ⟨mark, digits⟩ := e
    obtain ⟨hmark, hdigits⟩ := h _ rfl
    obtain ⟨c, sign, hc, hsign, rfl⟩ : ∃ c sign, (c = 'e' ∨ c = 'E') ∧
        sign ∈ [[], ['+'], ['-']] ∧ mark = c :: sign := by
      simp only [exponentMarks, List.mem_cons, List.not_mem_nil, or_false] at hmark
      rcases hmark with rfl | rfl | rfl | rfl | rfl | rfl <;>
        exact ⟨_, _, by decide, by decide, rfl⟩
    have hscan := scanDigits_append hdigits fun c hc => (hrest c hc).1
    rw [exponentText, List.append_assoc, List.cons_append, scanExponent, if_pos hc,
      scanSign_append hdigits sign hsign]
    simp only [hscan]
    rfl

/-! ### What follows a part -/

/-- An exponent, or what follows the number, is no digit and no point. -/
theorem head_exponent_append {exponent : Option (List Char × List Char)}
    (h : ∀ e ∈ exponent, e.1 ∈ exponentMarks ∧ Digits e.2) (hrest : EndsNumber rest) :
    ∀ c ∈ (exponentText exponent ++ rest).head?, c.isDigit = false ∧ c ≠ '.' := by
  cases exponent with
  | none => exact fun c hc => ⟨(hrest c hc).1, (hrest c hc).2.1⟩
  | some e =>
    obtain ⟨mark, digits⟩ := e
    have hmark := (h _ rfl).1
    simp only [exponentMarks, List.mem_cons, List.not_mem_nil, or_false] at hmark
    rcases hmark with rfl | rfl | rfl | rfl | rfl | rfl <;>
      · rintro _ ⟨⟩
        exact ⟨rfl, by decide⟩

/-- A fraction, or what follows it, is no digit. -/
theorem head_fraction_append (fraction : Option (List Char))
    (hrest : ∀ c ∈ rest.head?, c.isDigit = false) :
    ∀ c ∈ (fractionText fraction ++ rest).head?, c.isDigit = false := by
  cases fraction with
  | none => exact hrest
  | some digits =>
    rintro _ ⟨⟩
    rfl

/-! ### The number -/

theorem scanUnsigned_append (hl : l.Grammatical) (hrest : EndsNumber rest) :
    scanUnsigned l.negative
        (l.whole ++ (fractionText l.fraction ++ (exponentText l.exponent ++ rest))) =
      l.value.map fun n => (n, rest) := by
  have hexponent := head_exponent_append hl.exponent hrest
  have hfraction := head_fraction_append l.fraction fun c hc => (hexponent c hc).1
  rw [scanUnsigned, scanWhole_append hl.whole hl.whole_of_zero hfraction, Except.ok_bind]
  simp only [scanFraction_append hl.fraction hexponent, Except.ok_bind,
    scanExponent_append hl.exponent hrest]
  cases l.value <;> rfl

/-- The whole part of a number begins with a digit. -/
theorem exists_whole_eq_cons (hl : l.Grammatical) :
    ∃ c tail, l.whole = c :: tail ∧ c.isDigit = true := by
  obtain ⟨c, tail, hwhole⟩ := List.exists_cons_of_ne_nil hl.whole.1
  exact ⟨c, tail, hwhole, hl.whole.2 c (by rw [hwhole]; exact .head _)⟩

/-- **A number is read from its spelling.** What follows has to end it. -/
theorem scanNumber_append (hl : l.Grammatical) (hrest : EndsNumber rest) :
    scanNumber (l.spelling ++ rest) = l.value.map fun n => (n, rest) := by
  obtain ⟨c, tail, hwhole, hc⟩ := exists_whole_eq_cons hl
  have hscan := scanUnsigned_append hl hrest
  rw [Literal.spelling_eq, List.append_assoc, List.append_assoc, List.append_assoc, ← hscan]
  cases l.negative with
  | true => rfl
  | false =>
    rw [hwhole, if_neg Bool.false_ne_true, List.nil_append, List.cons_append,
      scanNumber.eq_2 _ fun s hs => ne_of_isDigit hc rfl (List.cons.inj hs).1]

/-- A number begins with a digit or a minus sign. -/
theorem exists_cons_of_mem_number {n : Number} {s : List Char} (hs : s ∈ n.spellings) :
    ∃ c t, s = c :: t ∧ (c = '-' ∨ c.isDigit = true) := by
  obtain ⟨l, hl, -, rfl⟩ := hs
  obtain ⟨c, tail, hwhole, hc⟩ := exists_whole_eq_cons hl
  rw [Literal.spelling_eq]
  cases l.negative with
  | true => exact ⟨'-', _, rfl, .inl rfl⟩
  | false => exact ⟨c, _, by rw [hwhole]; rfl, .inr hc⟩

/-! ### Counts -/

/-- No zero stands before another digit. -/
theorem head_toDigits_ne_zero (n : Nat) (hn : 0 < n) : (Nat.toDigits 10 n).head? ≠ some '0' := by
  induction n using Nat.strongRecOn with
  | _ n ih =>
    rw [Nat.toDigits_eq_if (by omega)]
    split
    · rename_i hlt
      have all : ∀ k : Fin 10, 0 < k.val → [k.val.digitChar].head? ≠ some '0' := by decide
      exact all ⟨n, hlt⟩ hn
    · rename_i hge
      cases h : Nat.toDigits 10 (n / 10) with
      | nil => exact absurd h Nat.toDigits_ne_nil
      | cons c digits =>
        have := ih (n / 10) (by omega) (by omega)
        rwa [h] at this

theorem digits_toDigits (n : Nat) : Digits (Nat.toDigits 10 n) :=
  ⟨Nat.toDigits_ne_nil, fun _ hc => Nat.isDigit_of_mem_toDigits (by omega) (by omega) hc⟩

theorem grammatical_toDigits (n : Nat) :
    Literal.Grammatical ⟨false, Nat.toDigits 10 n, none, none⟩ where
  whole := digits_toDigits n
  whole_of_zero h := by
    obtain rfl | hn := Nat.eq_zero_or_pos n
    · exact Nat.toDigits_zero 10
    · exact absurd h (head_toDigits_ne_zero n hn)
  fraction := by
    rintro _ ⟨⟩
  exponent := by
    rintro _ ⟨⟩

/-- A count is worth what its digits say. -/
theorem value_toDigits (n : UInt64) :
    Literal.value ⟨false, Nat.toDigits 10 n.toNat, none, none⟩ = .ok (.natural n) := by
  have hn : n.toNat < UInt64.size := n.toNat_lt
  simp [Literal.value, Literal.decimal, Nat.ofDigitChars_ten_toDigits, hn]

/-- A written count is one of its spellings. -/
theorem toDigits_mem_spellings (n : UInt64) :
    Nat.toDigits 10 n.toNat ∈ (Number.natural n).spellings := by
  refine ⟨_, grammatical_toDigits n.toNat, value_toDigits n, ?_⟩
  simp [Literal.spelling]

end Json

end StreamProgress
