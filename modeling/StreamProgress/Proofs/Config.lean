import StreamProgress.Config
import StreamProgress.Proofs.Except
import StreamProgress.Proofs.NameMap

/-!
# Which values are configurations

A configuration is read by going through the fields of an object and setting one after the other, and
its limits are looked at when all fields are set. What comes of it can be said without an order. Every
part of a configuration is what the field of its name spells, or what it is by default, and this is
told by the values under the names (`Config.ReadFrom`).

## Setting one field and setting all

Setting one field is reading from a source that has one name. Reading from two sources that share no
name is reading from both of them together (`Config.readFrom_or_iff`), so the fields are set in any
order to the same effect, and a fault of one field is met whatever the others are.

## Three stages

The value is no object, or the fields do not fit, or a limit is zero. The stages are passed in this
order, so an unknown name hides a limit of zero. Within the last stage the limit of bytes is the first
that is refused.

## Main definitions

* `Config.valueUnder` — the value under a name that counts
* `Config.ReadFrom` — what a configuration has to do with the values under the names
* `Config.WellTyped` — whether there is such a configuration

## Main results

* `Config.ofFields_eq_ok_iff` — the fields of an object
* `Config.ofJson_of_not_object`, `Config.ofJson_of_not_wellTyped`, `Config.ofJson_of_readFrom` — the
  three stages
* `Config.ofJson_exact` — what is read from a value, and what is refused at which stage
-/

namespace StreamProgress

open Json (Mismatch Vocabulary)
open NameMap (valuesOf)

namespace Config

variable {config start : Config} {members : List (String × Json)} {name : String} {v : Json}
  {level : Level}

/-- The value under a name that counts among members, which is the last one. -/
def valueUnder (members : List (String × Json)) (name : String) : Option Json :=
  (valuesOf name members).getLast?

/-! ### What fields spell -/

/-- Whether a value spells a level: as its name, or as an object with `null` under the name and with
no other name. -/
def SpellsLevel (v : Json) (level : Level) : Prop :=
  v = .string level.name ∨
    ∃ members, v = .object members ∧ (∀ m ∈ members, m.1 = level.name) ∧
      valueUnder members level.name = some .null

/-- Whether a value spells a count: as an integer without a fraction or an exponent that fits 64
bits. -/
def SpellsCount (v : Json) (n : UInt64) : Prop := v = .count n

/-- Whether a value spells a truth value. -/
def SpellsBool (v : Json) (b : Bool) : Prop := v = .bool b

theorem find_level_eq_ok_iff : Level.vocabulary.find name = .ok level ↔ name = level.name := by
  refine ⟨?_, fun h => h ▸ Level.find_name level⟩
  intro h
  rw [Vocabulary.find] at h
  split at h
  · rename_i found hfound
    obtain rfl := Except.ok.inj h
    obtain ⟨before, after, hentries, -⟩ := List.lookup_eq_some_iff.1 hfound
    have hmem : (name, found) ∈ Level.vocabulary.entries := hentries ▸ List.mem_append_cons_self
    obtain ⟨l, -, hl⟩ := List.mem_map.1 hmem
    obtain ⟨rfl, rfl⟩ := Prod.mk.inj hl
    rfl
  · cases h

theorem unitOfJson_eq_ok_iff {u : Unit} : Vocabulary.unitOfJson v = .ok u ↔ v = .null := by
  rw [Vocabulary.unitOfJson, ← Json.isNull_iff]
  split <;> simp_all

theorem spellsLevel_object : SpellsLevel (.object members) level ↔
    (∀ m ∈ members, m.1 = level.name) ∧ valueUnder members level.name = some .null := by
  simp [SpellsLevel]

/-- Where all members have one name, the last member counts. -/
theorem valueUnder_cons (hall : ∀ m ∈ members, m.1 = name) :
    valueUnder ((name, v) :: members) name = some ((members.getLast?.map Prod.snd).getD v) := by
  have hvalues : valuesOf name members = members.map Prod.snd := by
    rw [valuesOf, List.filter_eq_self.2 fun m hm => decide_eq_true (hall m hm)]
  rw [valueUnder, NameMap.valuesOf_cons_self, hvalues, List.getLast?_cons, List.getLast?_map]

theorem level_eq_ok_iff : Level.vocabulary.ofJson v = .ok level ↔ SpellsLevel v level := by
  cases v with
  | string name => simp [Vocabulary.ofJson, find_level_eq_ok_iff, SpellsLevel]
  | object members =>
    rw [spellsLevel_object]
    cases members with
    | nil => simp [Vocabulary.ofJson, valueUnder]
    | cons m members =>
      obtain ⟨name, value⟩ := m
      by_cases hall : ∀ m ∈ members, m.1 = name
      · have hread : Level.vocabulary.ofJson (.object ((name, value) :: members)) = .ok level ↔
            name = level.name ∧ (members.getLast?.map Prod.snd).getD value = .null := by
          rw [Vocabulary.ofJson, if_pos (by simpa using hall), Except.bind_eq_ok_iff]
          simp [Except.bind_eq_ok_iff, find_level_eq_ok_iff, unitOfJson_eq_ok_iff]
        rw [hread]
        constructor
        · rintro ⟨rfl, hlast⟩
          exact ⟨List.forall_mem_cons.2 ⟨rfl, hall⟩, by rw [valueUnder_cons hall, hlast]⟩
        · rintro ⟨hnames, hvalue⟩
          obtain rfl : name = level.name := hnames _ (List.mem_cons_self ..)
          rw [valueUnder_cons hall] at hvalue
          exact ⟨rfl, Option.some.inj hvalue⟩
      · rw [Vocabulary.ofJson, if_neg (by simpa using hall)]
        refine iff_of_false nofun ?_
        rintro ⟨hnames, -⟩
        obtain ⟨hname, hmembers⟩ := List.forall_mem_cons.1 hnames
        exact hall fun m hm => (hmembers m hm).trans hname.symm
  | null | bool b | number n | array items => simp [Vocabulary.ofJson, SpellsLevel]

theorem count_eq_ok_iff {n : UInt64} : Cursor.countOfJson "usize" v = .ok n ↔ SpellsCount v n := by
  rw [SpellsCount, Json.count]
  unfold Cursor.countOfJson
  split <;> simp_all

theorem bool_eq_ok_iff {b : Bool} : boolOfJson v = .ok b ↔ SpellsBool v b := by
  cases v <;> simp [boolOfJson, SpellsBool]

/-! ### What fields make of a configuration -/

/-- What becomes of one part of a configuration: what a value spells, or what it was if there is no
value. -/
def Becomes {α : Type} (Spells : Json → α → Prop) (before : α) : Option Json → α → Prop
  | none, after => after = before
  | some v, after => Spells v after

section Becomes

variable {α : Type} {Spells : Json → α → Prop} {a b : α} {value value' : Option Json}

/-- The one value that there is may come from either source. -/
theorem becomes_or_iff (h : value = none ∨ value' = none) :
    Becomes Spells a (value.or value') b ↔
      ∃ c, Becomes Spells a value c ∧ Becomes Spells c value' b := by
  obtain rfl | rfl := h
  · simp [Becomes]
  · cases value <;> simp [Becomes]

theorem exists_becomes_iff (a : α) :
    (∃ b, Becomes Spells a value b) ↔ ∀ v ∈ value, ∃ b, Spells v b := by
  cases value <;> simp [Becomes]

/-- A count that was not zero becomes zero by being given as zero. -/
theorem Becomes.eq_zero_iff {m n : UInt64} (h : Becomes SpellsCount m value n) (hm : m ≠ 0) :
    n = 0 ↔ value = some (.count 0) := by
  cases value with
  | none =>
    obtain rfl : n = m := h
    simpa using hm
  | some v =>
    obtain rfl : v = .count n := h
    simp [Json.count]

end Becomes

/-- Whether reading the values under the names makes `config` of `start`. -/
structure ReadFrom (start : Config) (value : String → Option Json) (config : Config) : Prop where
  /-- No other names have values. -/
  known : ∀ name, value name ≠ none → name ∈ fieldNames
  level : Becomes SpellsLevel start.level (value "log_level") config.level
  maxBytes : Becomes SpellsCount start.maxBytes (value "log_max_bytes") config.maxBytes
  maxFiles : Becomes SpellsCount start.maxFiles (value "log_max_files") config.maxFiles
  verifyChecksums :
    Becomes SpellsBool start.verifyChecksums (value "verify_checksums") config.verifyChecksums

/-- Whether the values under the names are values of fields. -/
structure WellTyped (value : String → Option Json) : Prop where
  known : ∀ name, value name ≠ none → name ∈ fieldNames
  level : ∀ v ∈ value "log_level", ∃ level, SpellsLevel v level
  maxBytes : ∀ v ∈ value "log_max_bytes", ∃ n, SpellsCount v n
  maxFiles : ∀ v ∈ value "log_max_files", ∃ n, SpellsCount v n
  verifyChecksums : ∀ v ∈ value "verify_checksums", ∃ b, SpellsBool v b

theorem exists_readFrom_iff (start : Config) {value : String → Option Json} :
    (∃ config, ReadFrom start value config) ↔ WellTyped value := by
  constructor
  · rintro ⟨config, h⟩
    exact ⟨h.known, (exists_becomes_iff _).1 ⟨_, h.level⟩, (exists_becomes_iff _).1 ⟨_, h.maxBytes⟩,
      (exists_becomes_iff _).1 ⟨_, h.maxFiles⟩, (exists_becomes_iff _).1 ⟨_, h.verifyChecksums⟩⟩
  · intro h
    obtain ⟨level, hlevel⟩ := (exists_becomes_iff start.level).2 h.level
    obtain ⟨maxBytes, hmaxBytes⟩ := (exists_becomes_iff start.maxBytes).2 h.maxBytes
    obtain ⟨maxFiles, hmaxFiles⟩ := (exists_becomes_iff start.maxFiles).2 h.maxFiles
    obtain ⟨verify, hverify⟩ := (exists_becomes_iff start.verifyChecksums).2 h.verifyChecksums
    exact ⟨⟨level, maxBytes, maxFiles, verify⟩, h.known, hlevel, hmaxBytes, hmaxFiles, hverify⟩

/-! ### One field after the other -/

/-- **Sources that share no name are read one after the other.** -/
theorem readFrom_or_iff {value value' : String → Option Json}
    (hdisjoint : ∀ name, value name = none ∨ value' name = none) :
    ReadFrom start (fun name => (value name).or (value' name)) config ↔
      ∃ between, ReadFrom start value between ∧ ReadFrom between value' config := by
  constructor
  · intro h
    obtain ⟨level, hlevel, hlevel'⟩ := (becomes_or_iff (hdisjoint _)).1 h.level
    obtain ⟨maxBytes, hmaxBytes, hmaxBytes'⟩ := (becomes_or_iff (hdisjoint _)).1 h.maxBytes
    obtain ⟨maxFiles, hmaxFiles, hmaxFiles'⟩ := (becomes_or_iff (hdisjoint _)).1 h.maxFiles
    obtain ⟨verify, hverify, hverify'⟩ := (becomes_or_iff (hdisjoint _)).1 h.verifyChecksums
    refine ⟨⟨level, maxBytes, maxFiles, verify⟩, ⟨?_, hlevel, hmaxBytes, hmaxFiles, hverify⟩,
      ⟨?_, hlevel', hmaxBytes', hmaxFiles', hverify'⟩⟩
    · exact fun name hname => h.known name (by simp [hname])
    · exact fun name hname => h.known name (by simp [hname])
  · rintro ⟨between, h, h'⟩
    refine ⟨?_, (becomes_or_iff (hdisjoint _)).2 ⟨_, h.level, h'.level⟩,
      (becomes_or_iff (hdisjoint _)).2 ⟨_, h.maxBytes, h'.maxBytes⟩,
      (becomes_or_iff (hdisjoint _)).2 ⟨_, h.maxFiles, h'.maxFiles⟩,
      (becomes_or_iff (hdisjoint _)).2 ⟨_, h.verifyChecksums, h'.verifyChecksums⟩⟩
    intro name hname
    by_cases hvalue : value name = none
    · exact h'.known name (by simpa [hvalue] using hname)
    · exact h.known name hvalue

/-- Reading from nothing. -/
theorem readFrom_none_iff : ReadFrom start (fun _ => none) config ↔ config = start := by
  constructor
  · intro h
    obtain ⟨level, maxBytes, maxFiles, verify⟩ := config
    obtain ⟨-, rfl, rfl, rfl, rfl⟩ := h
    rfl
  · rintro rfl
    exact ⟨nofun, rfl, rfl, rfl, rfl⟩

/-- The source that has one name. -/
def only (name : String) (v : Json) (other : String) : Option Json :=
  if name = other then some v else none

theorem known_only (hname : name ∈ fieldNames) :
    ∀ other, only name v other ≠ none → other ∈ fieldNames := by
  intro other hother
  by_cases h : name = other
  · exact h ▸ hname
  · exact absurd (if_neg h) hother

theorem readFrom_of_setField (h : setField start name v = .ok config) :
    ReadFrom start (only name v) config := by
  rw [setField] at h
  split at h
  · rename_i hname
    subst hname
    obtain ⟨level, hlevel, hset⟩ := Except.bind_eq_ok_iff.1 h
    obtain rfl := Except.ok.inj hset
    exact ⟨known_only (by decide), level_eq_ok_iff.1 hlevel, rfl, rfl, rfl⟩
  split at h
  · rename_i hname
    subst hname
    obtain ⟨maxBytes, hmaxBytes, hset⟩ := Except.bind_eq_ok_iff.1 h
    obtain rfl := Except.ok.inj hset
    exact ⟨known_only (by decide), rfl, count_eq_ok_iff.1 hmaxBytes, rfl, rfl⟩
  split at h
  · rename_i hname
    subst hname
    obtain ⟨maxFiles, hmaxFiles, hset⟩ := Except.bind_eq_ok_iff.1 h
    obtain rfl := Except.ok.inj hset
    exact ⟨known_only (by decide), rfl, rfl, count_eq_ok_iff.1 hmaxFiles, rfl⟩
  split at h
  · rename_i hname
    subst hname
    obtain ⟨verify, hverify, hset⟩ := Except.bind_eq_ok_iff.1 h
    obtain rfl := Except.ok.inj hset
    exact ⟨known_only (by decide), rfl, rfl, rfl, bool_eq_ok_iff.1 hverify⟩
  · cases h

/-- **Setting a field is reading from a source that has one name.** -/
theorem setField_eq_ok_iff :
    setField start name v = .ok config ↔ ReadFrom start (only name v) config := by
  refine ⟨readFrom_of_setField, ?_⟩
  intro h
  have hname : name ∈ fieldNames := h.known name (by simp [only])
  obtain ⟨level, maxBytes, maxFiles, verify⟩ := config
  simp only [fieldNames, List.mem_cons, List.not_mem_nil, or_false] at hname
  obtain rfl | rfl | rfl | rfl := hname
  · obtain ⟨-, hlevel, rfl, rfl, rfl⟩ := h
    rw [setField, if_pos rfl, level_eq_ok_iff.2 hlevel]
    rfl
  · obtain ⟨-, rfl, hmaxBytes, rfl, rfl⟩ := h
    rw [setField, if_neg (by decide), if_pos rfl, count_eq_ok_iff.2 hmaxBytes]
    rfl
  · obtain ⟨-, rfl, rfl, hmaxFiles, rfl⟩ := h
    rw [setField, if_neg (by decide), if_neg (by decide), if_pos rfl, count_eq_ok_iff.2 hmaxFiles]
    rfl
  · obtain ⟨-, rfl, rfl, rfl, hverify⟩ := h
    rw [setField, if_neg (by decide), if_neg (by decide), if_neg (by decide), if_pos rfl,
      bool_eq_ok_iff.2 hverify]
    rfl

/-! ### All fields -/

theorem foldlM_setField_eq_ok_iff {entries : List (String × Json)}
    (hascending : entries.Pairwise fun a b => a.1 < b.1) :
    entries.foldlM (fun config e => setField config e.1 e.2) start = .ok config ↔
      ReadFrom start (fun name => NameMap.lookup name entries) config := by
  induction entries generalizing start with
  | nil =>
    rw [List.foldlM_nil, Except.pure_eq_ok, Except.ok.injEq, eq_comm]
    exact readFrom_none_iff.symm
  | cons e entries ih =>
    obtain ⟨name, v⟩ := e
    obtain ⟨hlt, hentries⟩ := List.pairwise_cons.1 hascending
    have hdisjoint : ∀ other, only name v other = none ∨ NameMap.lookup other entries = none := by
      intro other
      by_cases hname : name = other
      · exact .inr (hname ▸ NameMap.lookup_eq_none_of_lt hlt)
      · exact .inl (if_neg hname)
    have hsource : (fun other => NameMap.lookup other ((name, v) :: entries)) =
        fun other => (only name v other).or (NameMap.lookup other entries) := by
      funext other
      rw [NameMap.lookup, only]
      split <;> rfl
    rw [List.foldlM_cons, Except.bind_eq_ok_iff, hsource, readFrom_or_iff hdisjoint]
    exact exists_congr fun between => and_congr setField_eq_ok_iff (ih hentries)

/-- **The fields of an object are read from its values,** in whatever order they stand. -/
theorem ofFields_eq_ok_iff :
    ofFields (NameMap.ofPairs members) = .ok config ↔ ReadFrom {} (valueUnder members) config := by
  have hsource : (fun name => NameMap.lookup name (NameMap.ofPairs members).entries) =
      valueUnder members := funext (NameMap.get?_ofPairs members)
  rw [ofFields, foldlM_setField_eq_ok_iff (NameMap.ofPairs members).ascending, hsource]

theorem ReadFrom.unique {config' : Config} (h : ReadFrom {} (valueUnder members) config)
    (h' : ReadFrom {} (valueUnder members) config') : config = config' :=
  Except.ok.inj ((ofFields_eq_ok_iff.2 h).symm.trans (ofFields_eq_ok_iff.2 h'))

/-! ### The three stages -/

theorem ofJson_of_not_object (h : ∀ members, v ≠ .object members) :
    ofJson v = .error (.invalid .notAnObject) := by
  cases v with
  | object members => exact absurd rfl (h members)
  | null | bool b | number n | string s | array items => rfl

theorem ofJson_of_not_wellTyped (h : ¬WellTyped (valueUnder members)) :
    ∃ cause, ofJson (.object members) = .error (.mismatch cause) := by
  rw [ofJson]
  cases hfields : ofFields (NameMap.ofPairs members) with
  | error cause => exact ⟨cause, rfl⟩
  | ok config =>
    have hread : ReadFrom {} (valueUnder members) config := ofFields_eq_ok_iff.1 hfields
    exact absurd ((exists_readFrom_iff {}).1 ⟨config, hread⟩) h

theorem ofJson_of_readFrom (h : ReadFrom {} (valueUnder members) config) :
    ofJson (.object members) =
      if config.maxBytes = 0 then .error (.invalid .zeroMaxBytes)
      else if config.maxFiles = 0 then .error (.invalid .zeroMaxFiles)
      else .ok config := by
  simp only [ofJson, ofFields_eq_ok_iff.2 h, validate]
  by_cases hbytes : config.maxBytes = 0
  · simp only [if_pos hbytes]
  · by_cases hfiles : config.maxFiles = 0
    · simp only [if_neg hbytes, if_pos hfiles]
    · simp only [if_neg hbytes, if_neg hfiles]

/-- **Which values are configurations, which configurations they are, and why others are refused.**

* A configuration is read from an object whose values make it of the default one, if its limits are not
  zero.
* There is one exactly if the object has only names of fields, the level is a name or an object with
  `null` under a name, the limits are integers that fit 64 bits, but not zero, and whether checksums
  are verified is a truth value. All of them may be missing.
* A value that is no object is refused as such.
* A name that is unknown, or a value that does not fit, is a mismatch, whatever the limits are.
* Otherwise a limit of zero is refused under its name, and that of bytes before that of files. -/
theorem ofJson_exact (v : Json) :
    (∀ config, ofJson v = .ok config ↔ ∃ members, v = .object members ∧
        ReadFrom {} (valueUnder members) config ∧ config.maxBytes ≠ 0 ∧ config.maxFiles ≠ 0) ∧
      ((∃ config, ofJson v = .ok config) ↔ ∃ members, v = .object members ∧
        WellTyped (valueUnder members) ∧ valueUnder members "log_max_bytes" ≠ some (.count 0) ∧
          valueUnder members "log_max_files" ≠ some (.count 0)) ∧
      (ofJson v = .error (.invalid .notAnObject) ↔ ∀ members, v ≠ .object members) ∧
      ((∃ cause, ofJson v = .error (.mismatch cause)) ↔ ∃ members, v = .object members ∧
        ¬WellTyped (valueUnder members)) ∧
      (ofJson v = .error (.invalid .zeroMaxBytes) ↔ ∃ members, v = .object members ∧
        WellTyped (valueUnder members) ∧ valueUnder members "log_max_bytes" = some (.count 0)) ∧
      (ofJson v = .error (.invalid .zeroMaxFiles) ↔ ∃ members, v = .object members ∧
        WellTyped (valueUnder members) ∧ valueUnder members "log_max_bytes" ≠ some (.count 0) ∧
          valueUnder members "log_max_files" = some (.count 0)) ∧
      Invalid.message .zeroMaxBytes = "log_max_bytes must be greater than zero" ∧
      Invalid.message .zeroMaxFiles = "log_max_files must be greater than zero" := by
  by_cases hobject : ∃ members, v = .object members
  · obtain ⟨members, rfl⟩ := hobject
    simp only [Json.object.injEq, exists_eq_left']
    by_cases hwell : WellTyped (valueUnder members)
    · obtain ⟨config, hread⟩ := (exists_readFrom_iff {}).2 hwell
      have hunique : ∀ config', ReadFrom {} (valueUnder members) config' ↔ config' = config :=
        fun config' => ⟨fun h => h.unique hread, fun h => h ▸ hread⟩
      have hbytes := hread.maxBytes.eq_zero_iff (by decide)
      have hfiles := hread.maxFiles.eq_zero_iff (by decide)
      simp only [ofJson_of_readFrom hread, hunique, hwell, ne_eq, ← hbytes, ← hfiles]
      by_cases hzeroBytes : config.maxBytes = 0
      · -- the limit of files is not looked at
        simp +contextual [hzeroBytes, Invalid.message]
      · by_cases hzeroFiles : config.maxFiles = 0
        · simp +contextual [hzeroBytes, hzeroFiles, Invalid.message]
        · simp +contextual [hzeroBytes, hzeroFiles, Invalid.message, eq_comm]
    · obtain ⟨cause, hcause⟩ := ofJson_of_not_wellTyped hwell
      have hread : ∀ config, ¬ReadFrom {} (valueUnder members) config :=
        fun config h => hwell ((exists_readFrom_iff {}).1 ⟨config, h⟩)
      simp [hcause, hwell, hread, Invalid.message]
  · have hv : ∀ members, v ≠ .object members := fun members h => hobject ⟨members, h⟩
    simp [ofJson_of_not_object hv, hv, Invalid.message]

/-- The last value of a name counts, so the limit of bytes is not zero here, and an unknown name hides
that it is. -/
example :
    (ofJson (.object [("log_max_files", .count 0), ("log_max_bytes", .count 0),
        ("log_max_bytes", .count 9)]),
      ofJson (.object [("log_max_bytes", .count 0), ("threads", .count 2)])) =
    (.error (.invalid .zeroMaxFiles), .error (.mismatch (.unknownField "threads" fieldNames))) := by
  rfl

end Config

end StreamProgress
