import StreamProgress.Proofs.Json.Number

/-!
# Reading the texts of a value

A value is read from each of its texts, whatever follows it, with one exception: a reader opens only
so many brackets inside each other, and a value that is nested deeper is malformed to it.
`Json.readsBack` states both cases at once, through `Json.within`.

## Entries

Both kinds of bracket are read by one loop. `Json.Leads` is what the loop does with the entries of a
bracket, told by what its step does at each of them (`Json.Reads`), and `Json.readEntries_of_leads`
reads the bracket in any of its spellings. It is stated for any step, so it also serves readers that
take the members of a bracket apart as they come.

## Room

A loop is given room by the length of the whole text. So what a step has to do is asked only for
entries that are no longer than that, and every part of a text is such an entry.

## Main definitions

* `Json.depth` — how deep the brackets of a value are nested
* `Json.Leads` — from which state to which result the entries of a bracket lead
* `Json.ReadsBack` — whether a value is read from its spellings

## Main results

* `Json.readEntries_of_leads` — the entries of a bracket
* `Json.readsBack` — a value
-/

namespace StreamProgress

namespace Json

/-! ### The shape of a value -/

mutual

/-- How deep the brackets of a value are nested. -/
def depth : Json → Nat
  | .array items => 1 + itemsDepth items
  | .object members => 1 + membersDepth members
  | _ => 0

/-- How deep the brackets of the deepest item are nested. -/
def itemsDepth : List Json → Nat
  | [] => 0
  | v :: items => max (depth v) (itemsDepth items)

/-- How deep the brackets of the deepest member are nested. -/
def membersDepth : List (String × Json) → Nat
  | [] => 0
  | (_, v) :: members => max (depth v) (membersDepth members)

end

variable {α σ : Type} {close : Char} {room nesting : Nat} {s rest : List Char}

/-! ### Blanks and marks -/

theorem isBlank_of_isDigit {c : Char} (hc : c.isDigit = true) : isBlank c = false := by
  have hne (d : Char) (hd : d.isDigit = false) : c ≠ d := ne_of_isDigit hc hd
  simp [isBlank, hne ' ' rfl, hne '\t' rfl, hne '\n' rfl, hne '\r' rfl]

/-- Blanks end a number. -/
theorem EndsNumber.blanks_append (hs : s ∈ blanks) (h : EndsNumber rest) :
    EndsNumber (s ++ rest) := by
  cases s with
  | nil => exact h
  | cons c s =>
    have hc : isBlank c = true := hs c (.head _)
    refine .cons ?_ ?_ ?_ ?_ _
    · cases hdigit : c.isDigit with
      | false => rfl
      | true => exact absurd (isBlank_of_isDigit hdigit) (by rw [hc]; decide)
    · rintro rfl
      cases hc
    · rintro rfl
      cases hc
    · rintro rfl
      cases hc

/-- A comma and a closing bracket end a number. -/
theorem endsNumber_mark {c : Char} (hc : c = ',' ∨ c = ']' ∨ c = '\x7d') (hs : s ∈ mark c)
    (rest : List Char) : EndsNumber (s ++ rest) := by
  obtain ⟨b, hb, _, rfl, rfl⟩ := hs
  rw [List.append_assoc]
  refine .blanks_append hb ?_
  rcases hc with rfl | rfl | rfl <;> exact .cons rfl (by decide) (by decide) (by decide) rest

theorem endsNumber_afterEntry (hclose : close = ']' ∨ close = '\x7d')
    {entries : List (Language Char)} (hs : s ∈ afterEntry close entries) (rest : List Char) :
    EndsNumber (s ++ rest) := by
  cases entries with
  | nil => exact endsNumber_mark (.inr hclose) hs rest
  | cons entry entries =>
    obtain ⟨_, ⟨m, hm, t, -, rfl⟩, u, -, rfl⟩ := hs
    rw [List.append_assoc, List.append_assoc]
    exact endsNumber_mark (.inl rfl) hm _

/-- Every other entry takes up room in the text. -/
theorem length_lt_of_mem_afterEntry {entries : List (Language Char)}
    (hs : s ∈ afterEntry close entries) : entries.length < s.length := by
  have hmark : ∀ {c : Char} {m : List Char}, m ∈ mark c → 0 < m.length := by
    rintro c _ ⟨b, -, _, rfl, rfl⟩
    simp
  induction entries generalizing s with
  | nil => exact hmark hs
  | cons entry entries ih =>
    obtain ⟨_, ⟨m, hm, t, -, rfl⟩, u, hu, rfl⟩ := hs
    have := ih hu
    have := hmark hm
    simp only [List.length_cons, List.length_append]
    omega

/-! ### Entries of a bracket -/

variable {step : σ → Reader σ} {state : σ} {result : Except Fault σ}
  {entries : List (Language Char)}

/-- What a step does at an entry: however the entry is spelled, the step has this result and leaves
what follows. -/
def Reads (room : Nat) (step : σ → Reader σ) (entry : Language Char) (state : σ)
    (result : Except Fault σ) : Prop :=
  ∀ s ∈ blanks * entry, s.length ≤ room → ∀ rest, EndsNumber rest →
    step state (s ++ rest) = result.map fun next => (next, rest)

/-- What the entries of a bracket lead to, one after the other. -/
inductive Leads (room : Nat) (step : σ → Reader σ) :
    σ → List (Language Char) → Except Fault σ → Prop
  | done (state : σ) : Leads room step state [] (.ok state)
  | next {state next : σ} {entry : Language Char} {entries : List (Language Char)}
      {result : Except Fault σ} (h : Reads room step entry state (.ok next))
      (hnext : Leads room step next entries result) :
    Leads room step state (entry :: entries) result
  | fault {state : σ} {entry : Language Char} {entries : List (Language Char)} {e : Fault}
      (h : Reads room step entry state (.error e)) :
    Leads room step state (entry :: entries) (.error e)

/-- The loop does what the entries lead to. -/
theorem foldEntries_of_leads (hclose : close = ']' ∨ close = '\x7d')
    (h : Leads room step state entries result) (hne : entries ≠ []) {bound : Nat}
    (hbound : entries.length ≤ bound) (hs : s ∈ bracketed close entries) (hroom : s.length ≤ room)
    (rest : List Char) :
    foldEntries close step bound state (s ++ rest) = result.map fun next => (next, rest) := by
  have hblank : isBlank close = false := by rcases hclose with rfl | rfl <;> rfl
  have hcomma : ',' ≠ close := by rcases hclose with rfl | rfl <;> decide
  induction h generalizing bound s with
  | done state => exact absurd rfl hne
  | @next state next entry entries result h hnext ih =>
    obtain ⟨t, ht, u, hu, rfl⟩ := hs
    rw [List.length_append] at hroom
    obtain ⟨bound, rfl⟩ : ∃ n, bound = n + 1 := ⟨bound - 1, by simp at hbound; omega⟩
    rw [foldEntries, List.append_assoc,
      h t ht (by omega) _ (endsNumber_afterEntry hclose hu rest)]
    cases entries with
    | nil =>
      cases hnext
      simp [Except.map, skipBlank_mark hu hblank]
    | cons entry entries =>
      obtain ⟨_, ⟨m, hm, t', ht', rfl⟩, u', hu', rfl⟩ := hu
      have hfold := ih (List.cons_ne_nil entry entries) (Nat.le_of_succ_le_succ hbound)
        ⟨t', ht', u', hu', rfl⟩ (by simp only [List.length_append] at hroom ⊢; omega)
      simp only [Except.map, List.append_assoc, skipBlank_mark hm (show isBlank ',' = false from rfl),
        if_neg hcomma, if_pos]
      rw [← List.append_assoc]
      exact hfold
  | @fault state entry entries e h =>
    obtain ⟨t, ht, u, hu, rfl⟩ := hs
    rw [List.length_append] at hroom
    obtain ⟨bound, rfl⟩ : ∃ n, bound = n + 1 := ⟨bound - 1, by simp at hbound; omega⟩
    rw [foldEntries, List.append_assoc,
      h t ht (by omega) _ (endsNumber_afterEntry hclose hu rest)]
    rfl

/-- Whether an entry begins neither with a blank nor like the end of the bracket. -/
def Opens (close : Char) (entry : Language Char) : Prop :=
  ∀ s ∈ entry, ∃ c t, s = c :: t ∧ isBlank c = false ∧ c ≠ close

/-- **A bracket is read to what its entries lead to,** if no entry begins like the end of the
bracket. -/
theorem readEntries_of_leads (hclose : close = ']' ∨ close = '\x7d')
    (h : Leads room step state entries result)
    (hopens : ∀ entry ∈ entries, Opens close entry)
    (hs : s ∈ bracketed close entries) (hroom : s.length ≤ room) (rest : List Char) :
    readEntries close step room state (s ++ rest) = result.map fun next => (next, rest) := by
  cases entries with
  | nil =>
    cases h
    have hblank : isBlank close = false := by rcases hclose with rfl | rfl <;> rfl
    simp [readEntries, skipBlank_mark hs hblank, Except.map]
  | cons entry entries =>
    obtain ⟨_, ⟨b, hb, t, ht, rfl⟩, u, hu, rfl⟩ := hs
    have hlength := length_lt_of_mem_afterEntry hu
    obtain ⟨c, t', rfl, hc, hne⟩ := hopens entry (.head _) t ht
    simp only [List.length_append] at hroom
    have hfold : foldEntries close step room state ((c :: t' ++ u) ++ rest) =
        result.map fun next => (next, rest) :=
      foldEntries_of_leads hclose h (List.cons_ne_nil entry entries)
        (by rw [List.length_cons]; omega) ⟨_, mem_blanks_mul ht, u, hu, rfl⟩
        (by rw [List.length_append]; omega) rest
    rw [← hfold]
    simp only [readEntries, List.append_assoc, skipBlank_append hb, List.cons_append,
      skipBlank_cons hc, if_neg hne]

/-! ### Nesting -/

/-- What was read, unless it takes more than `nesting` brackets inside each other. -/
def within (depth nesting : Nat) (a : α) : Except Fault α :=
  if depth ≤ nesting then .ok a else .error .malformed

theorem within_of_le {depth : Nat} (h : depth ≤ nesting) (a : α) : within depth nesting a = .ok a :=
  if_pos h

theorem within_of_lt {depth : Nat} (h : nesting < depth) (a : α) :
    within depth nesting a = .error .malformed :=
  if_neg (Nat.not_le.2 h)

theorem within_map {β : Type} {depth : Nat} (a : α) (f : α → β) :
    (within depth nesting a).map f = within depth nesting (f a) := by
  unfold within
  split <;> rfl

theorem within_bind {β : Type} {depth : Nat} (a : α) (f : α → β) :
    (within depth nesting a >>= fun a => pure (f a)) = within depth nesting (f a) := by
  unfold within
  split <;> rfl

theorem within_succ {depth : Nat} (a : α) :
    within (1 + depth) (nesting + 1) a = within depth nesting a := by
  simp only [within, Nat.add_comm 1, Nat.add_le_add_iff_right]

/-- An entry and those behind it are within a nesting together if both are. -/
theorem Reads.cons_within {state next last : σ} {entry : Language Char} {d e : Nat}
    (h : Reads room step entry state (within d nesting next))
    (hnext : Leads room step next entries (within e nesting last)) :
    Leads room step state (entry :: entries) (within (max d e) nesting last) := by
  by_cases hd : d ≤ nesting
  · rw [within_of_le hd] at h
    refine .next h ?_
    simpa only [within, Nat.max_le, hd, true_and] using hnext
  · have hlt := Nat.not_le.1 hd
    rw [within_of_lt hlt] at h
    rw [within_of_lt (by omega)]
    exact .fault h

/-- Entries are within a nesting together if each of them is. -/
theorem leads_within {spelled : α → Language Char} {depthOf : α → Nat} {add : σ → α → σ}
    {entries : List α} (h : ∀ a ∈ entries, ∀ state,
      Reads room step (spelled a) state (within (depthOf a) nesting (add state a))) (state : σ) :
    Leads room step state (entries.map spelled)
      (within (entries.foldr (fun a d => max (depthOf a) d) 0) nesting
        (entries.foldl add state)) := by
  induction entries generalizing state with
  | nil => exact .done state
  | cons a entries ih =>
    obtain ⟨ha, hentries⟩ := List.forall_mem_cons.1 h
    exact (ha state).cons_within (ih hentries (add state a))

theorem itemsDepth_eq (items : List Json) :
    itemsDepth items = items.foldr (fun v d => max v.depth d) 0 := by
  induction items with
  | nil => rfl
  | cons v items ih => rw [itemsDepth, List.foldr_cons, ih]

theorem membersDepth_eq (members : List (String × Json)) :
    membersDepth members = members.foldr (fun m d => max m.2.depth d) 0 := by
  induction members with
  | nil => rfl
  | cons m members ih => rw [membersDepth, List.foldr_cons, ih]

/-! ### Strings and names -/

namespace StringLiteral

/-- A code unit is not both halves of a surrogate pair. -/
theorem isTrailing_of_isLeading {n : Nat} (h : isLeading n = true) : isTrailing n = false := by
  simp [isLeading] at h
  simp [isTrailing]
  omega

theorem scanFrom_append {c : Char} (h : SpellsChar c s) (acc rest : List Char) :
    scanFrom acc (s ++ rest) = scanFrom (c :: acc) rest := by
  cases h with
  | raw hquote hbackslash hcontrol =>
    rw [List.cons_append, List.nil_append, scanFrom, if_neg (Nat.not_lt.2 hcontrol)]
    · exact hquote
    · exact hbackslash
  | @letter e c he =>
    have hu : e ≠ 'u' := by
      rintro rfl
      cases he
    simp [scanFrom, he]
  | unit hn hleading htrailing => simp [scanFrom, hn, hleading, htrailing]
  | pair hm hn hleading htrailing =>
    simp [scanFrom, hm, hn, hleading, htrailing, isTrailing_of_isLeading hleading]

theorem scanFrom_append_of_mem {chars : List Char} (hs : s ∈ spellingsFrom chars)
    (acc rest : List Char) : scanFrom acc (s ++ rest) = .ok (acc.reverse ++ chars, rest) := by
  induction chars generalizing acc s with
  | nil =>
    obtain rfl : s = _ := hs
    simp [scanFrom]
  | cons c chars ih =>
    obtain ⟨t, ht, u, hu, rfl⟩ := hs
    rw [List.append_assoc, scanFrom_append ht, ih hu, List.reverse_cons, List.append_assoc]
    rfl

/-- A string is read from each of its spellings. -/
theorem scan_append {x : String} (hs : s ∈ spellingsFrom x.toList) (rest : List Char) :
    scan (s ++ rest) = .ok (x, rest) := by
  simp [scan, scanFrom_append_of_mem hs]

end StringLiteral

theorem afterColon_append {read : Reader α} (hs : s ∈ mark ':') (rest : List Char) :
    afterColon read (s ++ rest) = read rest := by
  simp only [afterColon, skipBlank_mark hs (show isBlank ':' = false from rfl)]

/-- The step at a member is given its name and what stands behind it. -/
theorem namedStep_append {name : String} {entry : Language Char}
    (step : σ → String → Reader σ) (state : σ) (hs : s ∈ blanks * named name entry) :
    ∃ t ∈ mark ':' * (blanks * entry), t.length ≤ s.length ∧
      ∀ rest, namedStep step state (s ++ rest) = step state name (t ++ rest) := by
  obtain ⟨b, hb, _, ⟨_, ⟨_, rfl, u, hu, rfl⟩, t, ht, rfl⟩, rfl⟩ := hs
  refine ⟨t, ht, by simp only [List.length_append]; omega, ?_⟩
  intro rest
  simp only [namedStep, List.append_assoc, skipBlank_append hb, List.cons_append, List.nil_append,
    skipBlank_cons (show isBlank '"' = false from rfl), StringLiteral.scan_append hu]

/-! ### Steps of the reader of values -/

/-- Whether a value is read from its spellings that have room, with at most `nesting` brackets
inside each other. -/
def ReadsBack (room nesting : Nat) (v : Json) : Prop :=
  ∀ s ∈ blanks * v.spellings, s.length ≤ room → ∀ rest, EndsNumber rest →
    readValue room nesting (s ++ rest) = within v.depth nesting (v, rest)

/-- The step of `readValue` at an item. -/
theorem reads_pushItem {v : Json} (ih : ReadsBack room nesting v) (items : List Json) :
    Reads room (pushItem (readValue room nesting)) v.spellings items
      (within v.depth nesting (v :: items)) := by
  intro s hs hroom rest hrest
  rw [pushItem, ih s hs hroom rest hrest, within_map]
  exact within_bind _ _

/-- The step of `readValue` at a member. -/
theorem reads_pushMember {m : String × Json} (ih : ReadsBack room nesting m.2)
    (members : List (String × Json)) :
    Reads room (namedStep (pushMember (readValue room nesting))) (spellingsOf m) members
      (within m.2.depth nesting (m :: members)) := by
  intro s hs hroom rest hrest
  obtain ⟨_, ⟨c, hc, t, ht, rfl⟩, hlength, hstep⟩ :=
    namedStep_append (pushMember (readValue room nesting)) members hs
  rw [List.length_append] at hlength
  rw [hstep, pushMember, List.append_assoc, afterColon_append hc, ih t ht (by omega) rest hrest,
    within_map]
  exact within_bind _ _

/-! ### Values -/

/-- A value does not begin with a blank or like the end of an array. -/
theorem opens_spellings (v : Json) : Opens ']' v.spellings := by
  intro s hs
  cases v with
  | null =>
    obtain rfl : s = _ := hs
    exact ⟨_, _, rfl, rfl, by decide⟩
  | bool b =>
    cases b with
    | true =>
      obtain rfl : s = _ := hs
      exact ⟨_, _, rfl, rfl, by decide⟩
    | false =>
      obtain rfl : s = _ := hs
      exact ⟨_, _, rfl, rfl, by decide⟩
  | string x =>
    obtain ⟨_, rfl, t, -, rfl⟩ := hs
    exact ⟨_, _, rfl, rfl, by decide⟩
  | array items =>
    obtain ⟨_, rfl, t, -, rfl⟩ := hs
    exact ⟨_, _, rfl, rfl, by decide⟩
  | object members =>
    obtain ⟨_, rfl, t, -, rfl⟩ := hs
    exact ⟨_, _, rfl, rfl, by decide⟩
  | number n =>
    obtain ⟨c, t, rfl, rfl | hc⟩ := exists_cons_of_mem_number hs
    · exact ⟨_, _, rfl, rfl, by decide⟩
    · exact ⟨c, t, rfl, isBlank_of_isDigit hc, ne_of_isDigit hc rfl⟩

theorem opens_spellingsOf (m : String × Json) : Opens '\x7d' (spellingsOf m) := by
  rintro s ⟨_, ⟨_, rfl, t, -, rfl⟩, u, -, rfl⟩
  exact ⟨_, _, rfl, rfl, by decide⟩

/-- Blanks in front of a value are passed over. -/
theorem readsBack_of_spellings {v : Json} (h : ∀ s ∈ v.spellings, s.length ≤ room → ∀ rest,
      EndsNumber rest → readValue room nesting (s ++ rest) = within v.depth nesting (v, rest)) :
    ReadsBack room nesting v := by
  rintro _ ⟨b, hb, t, ht, rfl⟩ hroom rest hrest
  rw [List.length_append] at hroom
  rw [List.append_assoc, readValue.eq_def, skipBlank_append hb, ← readValue.eq_def]
  exact h t ht (by omega) rest hrest

theorem readValue_scalar {c : Char} {s : List Char} (hblank : isBlank c = false) (harray : c ≠ '[')
    (hobject : c ≠ '\x7b') : readValue room nesting (c :: s) = scanScalar (c :: s) := by
  cases nesting with
  | zero =>
    rw [readValue, skipBlank_cons hblank]
    split <;> simp_all
  | succ nesting =>
    rw [readValue, skipBlank_cons hblank]
    split <;> simp_all

/-- A minus sign or a digit begins a number. -/
theorem readValue_number {c : Char} (hc : c = '-' ∨ c.isDigit = true) (s : List Char) :
    readValue room nesting (c :: s) = (scanNumber (c :: s)).map fun p => (.number p.1, p.2) := by
  have hne (d : Char) (hminus : '-' ≠ d) (hd : d.isDigit = false) : c ≠ d := by
    rcases hc with rfl | hc
    · exact hminus
    · exact ne_of_isDigit hc hd
  have hblank : isBlank c = false := by
    rcases hc with rfl | hc
    · rfl
    · exact isBlank_of_isDigit hc
  rw [readValue_scalar hblank (hne '[' (by decide) rfl) (hne '\x7b' (by decide) rfl), scanScalar,
    if_pos hc]
  · cases scanNumber (c :: s) <;> rfl
  · exact hne 'n' (by decide) rfl
  · exact hne 't' (by decide) rfl
  · exact hne 'f' (by decide) rfl
  · exact hne '"' (by decide) rfl

theorem readItems_append {items : List Json} (ih : ∀ v ∈ items, ReadsBack room nesting v)
    (hs : s ∈ bracketed ']' (itemSpellings items)) (hroom : s.length ≤ room) (rest : List Char) :
    readItems (pushItem (readValue room nesting)) room [] (s ++ rest) =
      within (itemsDepth items) nesting (items.reverse, rest) := by
  have hleads := leads_within (fun v hv state => reads_pushItem (ih v hv) state) []
  have hopens : ∀ entry ∈ items.map spellings, Opens ']' entry :=
    List.forall_mem_map.2 fun v _ => opens_spellings v
  rw [itemSpellings_eq] at hs
  rw [readItems, readEntries_of_leads (.inl rfl) hleads hopens hs hroom, ← itemsDepth_eq, within_map,
    List.foldl_flip_cons_eq_append', List.append_nil]

theorem readMembers_append {members : List (String × Json)}
    (ih : ∀ m ∈ members, ReadsBack room nesting m.2)
    (hs : s ∈ bracketed '\x7d' (memberSpellings members)) (hroom : s.length ≤ room)
    (rest : List Char) :
    readMembers (pushMember (readValue room nesting)) room [] (s ++ rest) =
      within (membersDepth members) nesting (members.reverse, rest) := by
  have hleads := leads_within (fun m hm state => reads_pushMember (ih m hm) state) []
  have hopens : ∀ entry ∈ members.map spellingsOf, Opens '\x7d' entry :=
    List.forall_mem_map.2 fun m _ => opens_spellingsOf m
  rw [memberSpellings_eq] at hs
  rw [readMembers, readEntries_of_leads (.inr rfl) hleads hopens hs hroom, ← membersDepth_eq,
    within_map, List.foldl_flip_cons_eq_append', List.append_nil]

/-- **A value is read from each of its spellings.** What follows has to end a number. A value with
too many brackets inside each other is malformed to the reader. -/
theorem readsBack (v : Json) : ReadsBack room nesting v := by
  induction v generalizing nesting with
  | null =>
    refine readsBack_of_spellings ?_
    rintro _ rfl hroom rest hrest
    rw [List.cons_append, readValue_scalar rfl (by decide) (by decide)]
    rfl
  | bool b =>
    refine readsBack_of_spellings ?_
    cases b with
    | true =>
      rintro _ rfl hroom rest hrest
      rw [List.cons_append, readValue_scalar rfl (by decide) (by decide)]
      rfl
    | false =>
      rintro _ rfl hroom rest hrest
      rw [List.cons_append, readValue_scalar rfl (by decide) (by decide)]
      rfl
  | number n =>
    refine readsBack_of_spellings ?_
    intro t ht hroom rest hrest
    obtain ⟨c, u, hcons, hc⟩ := exists_cons_of_mem_number ht
    obtain ⟨l, hl, hvalue, rfl⟩ := ht
    have hscan := scanNumber_append hl hrest
    rw [hcons, List.cons_append] at hscan ⊢
    rw [readValue_number hc, hscan, hvalue]
    rfl
  | string x =>
    refine readsBack_of_spellings ?_
    rintro _ ⟨_, rfl, t, ht, rfl⟩ hroom rest hrest
    rw [List.append_assoc, List.singleton_append, readValue_scalar rfl (by decide) (by decide),
      scanScalar, StringLiteral.scan_append ht]
    rfl
  | array items ih =>
    refine readsBack_of_spellings ?_
    rintro _ ⟨_, rfl, t, ht, rfl⟩ hroom rest hrest
    rw [List.append_assoc, List.singleton_append, readValue.eq_def, skipBlank_cons rfl, depth]
    cases nesting with
    | zero =>
      rw [within_of_lt (by omega)]
      rfl
    | succ nesting =>
      have hitems : ∀ v ∈ items, ReadsBack room nesting v := fun v hv => ih v hv
      rw [List.length_append] at hroom
      simp only [readItems_append hitems ht (by omega) rest, within_bind, List.reverse_reverse,
        within_succ]
  | object members ih =>
    refine readsBack_of_spellings ?_
    rintro _ ⟨_, rfl, t, ht, rfl⟩ hroom rest hrest
    rw [List.append_assoc, List.singleton_append, readValue.eq_def, skipBlank_cons rfl, depth]
    cases nesting with
    | zero =>
      rw [within_of_lt (by omega)]
      rfl
    | succ nesting =>
      have hmembers : ∀ m ∈ members, ReadsBack room nesting m.2 := fun m hm => ih m hm
      rw [List.length_append] at hroom
      simp only [readMembers_append hmembers ht (by omega) rest, within_bind, List.reverse_reverse,
        within_succ]

/-! ### Documents -/

/-- Documents are read alike by readers that read alike from their front. -/
theorem readDocument_map {β : Type} {read : Reader α} {other : Reader β} {f : α → β}
    (h : other s = (read s).map fun p => (f p.1, p.2)) :
    readDocument other s = (readDocument read s).map f := by
  rw [readDocument, readDocument, h]
  cases read s with
  | error e => rfl
  | ok p =>
    obtain ⟨a, rest⟩ := p
    simp only [Except.map]
    cases skipBlank rest <;> rfl

end Json

end StreamProgress
