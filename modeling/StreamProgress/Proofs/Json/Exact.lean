import Mathlib.Data.List.TakeWhile
import StreamProgress.Proofs.Json.Reading

/-!
# The reader reads the texts of a value and nothing else

`Json.readsBack` says that a value is read from each of its texts. Here it is the other way round:
what has been read in front of the rest is a spelling of the value that was read
(`Json.Consumes`). Together they say what the parser accepts (`Json.parse_eq_ok_iff`): the texts of a
value, exactly, as far as the nesting goes. So the languages of `Json.spellings` are what the parser
takes for JSON, and whether a text is one of them is decided by running it.

## Main results

* `Json.consumes_readValue` — a value
* `Json.parse_eq_ok_iff` — a document
-/

namespace StreamProgress

namespace Json

variable {α σ : Type} {close : Char} {read : Reader α} {language : α → Language Char}

/-- What a reader takes from the front of a text is in the language of what it has read. -/
def Consumes (language : α → Language Char) (read : Reader α) : Prop :=
  ∀ s, (read s).Ends (fun _ => True) fun p => ∃ t ∈ language p.1, s = t ++ p.2

/-! ### Blanks, marks and words -/

theorem exists_blanks_append (s : List Char) : ∃ b ∈ blanks, s = b ++ skipBlank s :=
  ⟨s.takeWhile isBlank, fun _ hc => List.mem_takeWhile_imp hc, List.takeWhile_append_dropWhile.symm⟩

theorem exists_mark_append {s rest : List Char} {c : Char} (h : skipBlank s = c :: rest) :
    ∃ m ∈ mark c, s = m ++ rest := by
  obtain ⟨b, hb, hs⟩ := exists_blanks_append s
  refine ⟨_, ⟨b, hb, [c], rfl, rfl⟩, ?_⟩
  rw [List.append_assoc, List.singleton_append, ← h]
  exact hs

theorem ends_expectWord (word s : List Char) :
    (expectWord word s).Ends (fun _ => True) fun rest => s = word ++ rest := by
  induction word generalizing s with
  | nil => rfl
  | cons c word ih =>
    cases s with
    | nil => trivial
    | cons d s =>
      rw [expectWord]
      split
      · rename_i h
        obtain rfl := h
        exact (ih s).mono (fun _ => id) fun rest h => congrArg (c :: ·) h
      · trivial

/-! ### Strings -/

namespace StringLiteral

/-- What has been scanned is what had been before and the characters that a text spells. -/
def Scans (acc s : List Char) (p : List Char × List Char) : Prop :=
  ∃ chars, p.1 = acc.reverse ++ chars ∧ ∃ t ∈ spellingsFrom chars, s = t ++ p.2

theorem Scans.cons {c : Char} {acc u s : List Char} {p : List Char × List Char}
    (hu : SpellsChar c u) (h : Scans (c :: acc) s p) : Scans acc (u ++ s) p := by
  obtain ⟨chars, hp, t, ht, rfl⟩ := h
  refine ⟨c :: chars, ?_, u ++ t, ⟨u, hu, t, ht, rfl⟩, (List.append_assoc ..).symm⟩
  rw [hp, List.reverse_cons, List.append_assoc]
  rfl

theorem ends_scanFrom (acc s : List Char) :
    (scanFrom acc s).Ends (fun _ => True) (Scans acc s) := by
  fun_induction scanFrom acc s with
  | case2 acc rest => exact ⟨[], (List.append_nil _).symm, ['"'], rfl, rfl⟩
  | case9 acc a b c d m hm _ hleading e f g h rest n hn htrailing ih =>
    exact ih.mono (fun _ => id) fun p hp => hp.cons (.pair hm hn hleading htrailing)
  | case14 acc a b c d rest n hn htrailing hleading ih =>
    have hunit := SpellsChar.unit hn (Bool.eq_false_of_not_eq_true hleading)
      (Bool.eq_false_of_not_eq_true htrailing)
    exact ih.mono (fun _ => id) fun p hp => hp.cons hunit
  | case17 acc e rest _ c he ih => exact ih.mono (fun _ => id) fun p hp => hp.cons (.letter he)
  | case19 acc c rest hquote hbackslash hcontrol ih =>
    exact ih.mono (fun _ => id) fun p hp =>
      hp.cons (.raw hquote hbackslash (Nat.not_lt.1 hcontrol))
  | _ => trivial

/-- A string has been read from one of its spellings. -/
theorem ends_scan (s : List Char) :
    (scan s).Ends (fun _ => True) fun p => ∃ t ∈ spellingsFrom p.1.toList, s = t ++ p.2 := by
  have h := ends_scanFrom [] s
  rw [scan]
  cases hscan : scanFrom [] s with
  | error e => trivial
  | ok p =>
    obtain ⟨chars, hp, t, ht, hs⟩ := h.of_eq_ok hscan
    obtain rfl : p.1 = chars := hp
    exact ⟨t, by rwa [String.toList_ofList], hs⟩

end StringLiteral

/-! ### Numbers -/

theorem ends_scanDigits (s : List Char) :
    (scanDigits s).Ends (fun _ => True) fun p => Digits p.1 ∧ s = p.1 ++ p.2 := by
  have hdigits : ∀ c ∈ s.takeWhile Char.isDigit, c.isDigit = true :=
    fun _ hc => List.mem_takeWhile_imp hc
  have happend := (List.takeWhile_append_dropWhile (p := Char.isDigit) (l := s)).symm
  rw [scanDigits]
  generalize s.takeWhile Char.isDigit = digits at hdigits happend ⊢
  generalize s.dropWhile Char.isDigit = rest at happend ⊢
  cases digits with
  | nil => cases rest <;> trivial
  | cons c digits => exact ⟨⟨List.cons_ne_nil c digits, hdigits⟩, happend⟩

theorem ends_scanWhole (s : List Char) :
    (scanWhole s).Ends (fun _ => True) fun p =>
      Digits p.1 ∧ (p.1.head? = some '0' → p.1 = ['0']) ∧ s = p.1 ++ p.2 := by
  refine (ends_scanDigits s).bind fun p hp => ?_
  dsimp only
  split
  · trivial
  · rename_i hzero
    exact ⟨hp.1, fun hhead => by_contra fun hne => hzero ⟨hhead, hne⟩, hp.2⟩

theorem ends_scanFraction (s : List Char) :
    (scanFraction s).Ends (fun _ => True) fun p =>
      (∀ digits ∈ p.1, Digits digits) ∧ s = fractionText p.1 ++ p.2 := by
  unfold scanFraction
  split
  · rename_i s
    refine (ends_scanDigits s).bind fun p hp => ⟨?_, congrArg ('.' :: ·) hp.2⟩
    rintro _ ⟨⟩
    exact hp.1
  · exact ⟨by rintro _ ⟨⟩, rfl⟩

theorem exists_scanSign (s : List Char) : ∃ sign rest, scanSign s = (sign, rest) ∧
    sign ∈ [[], ['+'], ['-']] ∧ s = sign ++ rest := by
  unfold scanSign
  split
  · exact ⟨_, _, rfl, .tail _ (.head _), rfl⟩
  · exact ⟨_, _, rfl, .tail _ (.tail _ (.head _)), rfl⟩
  · exact ⟨_, _, rfl, .head _, rfl⟩

theorem ends_scanExponent (s : List Char) :
    (scanExponent s).Ends (fun _ => True) fun p =>
      (∀ e ∈ p.1, e.1 ∈ exponentMarks ∧ Digits e.2) ∧ s = exponentText p.1 ++ p.2 := by
  cases s with
  | nil => exact ⟨by rintro _ ⟨⟩, rfl⟩
  | cons c s =>
    rw [scanExponent]
    split
    · rename_i hc
      obtain ⟨sign, rest, hscan, hsign, rfl⟩ := exists_scanSign s
      have hmark : c :: sign ∈ exponentMarks := by
        simp only [List.mem_cons, List.not_mem_nil, or_false] at hsign
        rcases hc with rfl | rfl <;> rcases hsign with rfl | rfl | rfl <;> decide
      simp only [hscan]
      refine (ends_scanDigits rest).bind fun p hp => ⟨?_, by simp [exponentText, hp.2]⟩
      rintro _ ⟨⟩
      exact ⟨hmark, hp.1⟩
    · exact ⟨by rintro _ ⟨⟩, rfl⟩

/-- A number has been read from its spelling, up to its sign. -/
theorem ends_scanUnsigned (negative : Bool) (s : List Char) :
    (scanUnsigned negative s).Ends (fun _ => True) fun p =>
      ∃ t ∈ p.1.spellings, (if negative then ['-'] else []) ++ s = t ++ p.2 := by
  refine (ends_scanWhole s).bind fun whole ⟨hdigits, hzero, hwhole⟩ => ?_
  refine (ends_scanFraction whole.2).bind fun fraction hfraction => ?_
  refine (ends_scanExponent fraction.2).bind fun exponent hexponent => ?_
  refine (Except.ends_true_iff.2 fun n hn => hn).bind fun n hn => ?_
  refine ⟨_, ⟨⟨negative, whole.1, fraction.1, exponent.1⟩,
    ⟨hdigits, hzero, hfraction.1, hexponent.1⟩, hn, rfl⟩, ?_⟩
  rw [hwhole, hfraction.2, hexponent.2, Literal.spelling_eq]
  simp only [List.append_assoc]

theorem consumes_scanNumber : Consumes Number.spellings scanNumber := by
  intro s
  unfold scanNumber
  split
  · exact ends_scanUnsigned true _
  · exact ends_scanUnsigned false _

/-! ### Values without brackets -/

theorem consumes_scanScalar : Consumes spellings scanScalar := by
  intro s
  unfold scanScalar
  split
  · trivial
  · refine (ends_expectWord _ _).bind ?_
    rintro rest rfl
    exact ⟨_, rfl, rfl⟩
  · refine (ends_expectWord _ _).bind ?_
    rintro rest rfl
    exact ⟨_, rfl, rfl⟩
  · refine (ends_expectWord _ _).bind ?_
    rintro rest rfl
    exact ⟨_, rfl, rfl⟩
  · refine (StringLiteral.ends_scan _).bind ?_
    rintro p ⟨t, ht, rfl⟩
    exact ⟨_, ⟨_, rfl, t, ht, rfl⟩, rfl⟩
  · split
    · exact (consumes_scanNumber _).bind fun p hp => hp
    · trivial

/-! ### Brackets -/

/-- A step that puts what it reads in front of what has been read. -/
def Pushes (spelled : α → Language Char) (step : List α → Reader (List α)) : Prop :=
  ∀ taken s, (step taken s).Ends (fun _ => True) fun p =>
    ∃ a, p.1 = a :: taken ∧ ∃ t ∈ blanks * spelled a, s = t ++ p.2

variable {spelled : α → Language Char} {step : List α → Reader (List α)}

/-- The entries from one on. -/
theorem Pushes.foldEntries (h : Pushes spelled step) (bound : Nat) (taken : List α)
    (s : List Char) :
    (foldEntries close step bound taken s).Ends (fun _ => True) fun p =>
      ∃ a entries, p.1 = (a :: entries).reverse ++ taken ∧
        ∃ t ∈ bracketed close ((a :: entries).map spelled), s = t ++ p.2 := by
  induction bound generalizing taken s with
  | zero => trivial
  | succ bound ih =>
    rw [Json.foldEntries]
    cases hstep : step taken s with
    | error e => trivial
    | ok p =>
      obtain ⟨next, rest⟩ := p
      obtain ⟨a, rfl, t, ht, rfl⟩ := (h taken s).of_eq_ok hstep
      dsimp only
      split
      · trivial
      · rename_i c u hu
        obtain ⟨m, hm, rfl⟩ := exists_mark_append hu
        split
        · subst_vars
          exact ⟨a, [], rfl, _, ⟨t, ht, m, hm, rfl⟩, (List.append_assoc ..).symm⟩
        · split
          · subst_vars
            refine (ih (a :: taken) u).mono (fun _ => id) ?_
            rintro p ⟨b, entries, hp, _, ⟨t', ht', u', hu', rfl⟩, rfl⟩
            refine ⟨a, b :: entries, ?_, _, ⟨t, ht, _, ⟨_, ⟨m, hm, t', ht', rfl⟩, u', hu', rfl⟩,
              rfl⟩, ?_⟩
            · rw [hp]
              simp
            · simp
          · trivial

/-- The entries of a bracket that has been opened. -/
theorem Pushes.readEntries (h : Pushes spelled step) (bound : Nat) (s : List Char) :
    (readEntries close step bound [] s).Ends (fun _ => True) fun p =>
      ∃ t ∈ bracketed close (p.1.reverse.map spelled), s = t ++ p.2 := by
  rw [Json.readEntries]
  split
  · trivial
  · rename_i c u hu
    split
    · subst_vars
      obtain ⟨m, hm, hs⟩ := exists_mark_append hu
      exact ⟨m, hm, hs⟩
    · obtain ⟨b, hb, hs⟩ := exists_blanks_append s
      refine (h.foldEntries bound [] (c :: u)).mono (fun _ => id) ?_
      rintro p ⟨a, entries, hp, _, ⟨_, ⟨b', hb', t, ht, rfl⟩, v, hv, rfl⟩, hu'⟩
      have hbracket : (b ++ b' ++ t) ++ v ∈ bracketed close ((a :: entries).map spelled) :=
        ⟨_, ⟨b ++ b', List.forall_mem_append.2 ⟨hb, hb'⟩, t, ht, rfl⟩, v, hv, rfl⟩
      refine ⟨_, by rwa [hp, List.append_nil, List.reverse_reverse], ?_⟩
      rw [hs, hu, hu']
      simp

theorem Consumes.afterColon (h : Consumes (fun a => blanks * language a) read) :
    Consumes (fun a => mark ':' * (blanks * language a)) (afterColon read) := by
  intro s
  rw [Json.afterColon]
  split
  · trivial
  · rename_i u hu
    obtain ⟨m, hm, rfl⟩ := exists_mark_append hu
    refine (h u).mono (fun _ => id) ?_
    rintro p ⟨t, ht, rfl⟩
    exact ⟨_, ⟨m, hm, t, ht, rfl⟩, (List.append_assoc ..).symm⟩
  · trivial

theorem Consumes.pushItem (h : Consumes (fun a => blanks * language a) read) :
    Pushes language (pushItem read) := by
  intro taken s
  refine (h s).bind ?_
  rintro p ⟨t, ht, hs⟩
  exact ⟨p.1, rfl, t, ht, hs⟩

theorem Consumes.pushMember (h : Consumes (fun a => blanks * language a) read) :
    Pushes (fun m => named m.1 (language m.2)) (namedStep (pushMember read)) := by
  intro taken s
  rw [namedStep]
  split
  · trivial
  · rename_i u hu
    obtain ⟨b, hb, hs⟩ := exists_blanks_append s
    split
    · trivial
    · rename_i name v hscan
      obtain ⟨t, ht, rfl⟩ := (StringLiteral.ends_scan u).of_eq_ok hscan
      refine (h.afterColon v).bind ?_
      rintro p ⟨w, hw, hv⟩
      refine ⟨(name, p.1), rfl, _, ⟨b, hb, _, ⟨_, ⟨_, rfl, t, ht, rfl⟩, w, hw, rfl⟩, rfl⟩, ?_⟩
      rw [hs, hu]
      simp [hv]
  · trivial

/-! ### Values -/

/-- **What has been read as a value spells it.** -/
theorem consumes_readValue (room nesting : Nat) :
    Consumes (fun v => blanks * v.spellings) (readValue room nesting) := by
  have hscalar (s : List Char) : (scanScalar (skipBlank s)).Ends (fun _ => True) fun p =>
      ∃ t ∈ blanks * p.1.spellings, s = t ++ p.2 := by
    refine (consumes_scanScalar _).mono (fun _ => id) ?_
    rintro p ⟨t, ht, hs⟩
    obtain ⟨b, hb, hblank⟩ := exists_blanks_append s
    exact ⟨_, ⟨b, hb, t, ht, rfl⟩, by rw [hblank, hs, List.append_assoc]⟩
  induction nesting with
  | zero =>
    intro s
    rw [readValue]
    split
    · trivial
    · trivial
    · exact hscalar s
  | succ nesting ih =>
    intro s
    rw [readValue]
    obtain ⟨b, hb, hs⟩ := exists_blanks_append s
    split
    · rename_i u hu
      refine (ih.pushItem.readEntries room u).bind ?_
      rintro p ⟨t, ht, rfl⟩
      rw [← itemSpellings_eq] at ht
      exact ⟨_, ⟨b, hb, _, ⟨_, rfl, t, ht, rfl⟩, rfl⟩, by rw [hs, hu]; simp⟩
    · rename_i u hu
      refine (ih.pushMember.readEntries room u).bind ?_
      rintro p ⟨t, ht, rfl⟩
      have hmembers : t ∈ bracketed '\x7d' (memberSpellings p.1.reverse) := by
        rw [memberSpellings_eq]
        exact ht
      exact ⟨_, ⟨b, hb, _, ⟨_, rfl, t, hmembers, rfl⟩, rfl⟩, by rw [hs, hu]; simp⟩
    · exact hscalar s

/-- **The parser accepts the texts of a value and no others,** as far as the nesting goes. -/
theorem parse_eq_ok_iff {nesting : Nat} {text : String} {v : Json} :
    parse nesting text = .ok v ↔ text.toList ∈ v.documents ∧ v.depth ≤ nesting := by
  constructor
  · intro h
    have hdepth := (yields_readValue (roomFor text.toList) nesting).readDocument text.toList
    have hread := consumes_readValue (roomFor text.toList) nesting text.toList
    refine ⟨?_, hdepth.of_eq_ok h⟩
    rw [parse, readDocument] at h
    cases hvalue : readValue (roomFor text.toList) nesting text.toList with
    | error e => simp [hvalue] at h
    | ok p =>
      obtain ⟨t, ht, htext⟩ := hread.of_eq_ok hvalue
      simp only [hvalue] at h
      obtain ⟨b, hb, hrest⟩ := exists_blanks_append p.2
      split at h
      · rename_i hnil
        obtain rfl := Except.ok.inj h
        rw [hnil, List.append_nil] at hrest
        exact ⟨t, ht, b, hb, by rw [htext, hrest]⟩
      · cases h
  · rintro ⟨⟨s, hs, b, hb, htext⟩, hdepth⟩
    have hroom : s.length ≤ roomFor (s ++ b) := by
      rw [roomFor, List.length_append]
      omega
    have hnil : EndsNumber [] := by rintro c ⟨⟩
    have hends := EndsNumber.blanks_append hb hnil
    rw [List.append_nil] at hends
    rw [parse, ← htext, readDocument, readsBack v s hs hroom b hends, within_of_le hdepth]
    simp only [skipBlank_blanks hb]

end Json

end StreamProgress
