/-!
# Finite maps from names

A `NameMap β` holds at most one value for each name and keeps its entries in ascending order of
the names, by code point (which is also the order of their UTF-8 bytes). The order is part of the
type, so a map has exactly one list of entries: two maps with the same content are equal, and
whatever is written from the entries in order is canonical.

## Main definitions

* `NameMap.get?` — the value under a name
* `NameMap.alter` — set the value under one name, given the value that stood there
* `NameMap.ofPairs` — later pairs replace earlier ones of the same name
* `NameMap.intersect` — the common names of two maps, their values combined

## Main results

* `NameMap.mem_entries_iff` — the entries are the names with their values
* `NameMap.get?_alter` — `alter` changes the value under its own name and no other
* `NameMap.get?_intersect` — a name is common to both maps or absent
* `NameMap.ext_get?` — two maps with the same values are equal
-/

namespace StreamProgress

/-- A finite map from names to `β`, as entries in strictly ascending order of the names. -/
structure NameMap (β : Type) where
  /-- The entries, in ascending order. -/
  entries : List (String × β)
  /-- Names ascend strictly, so none occurs twice. -/
  ascending : entries.Pairwise fun a b => a.1 < b.1

namespace NameMap

variable {β : Type}

/-- The map with no entry. -/
def empty : NameMap β := ⟨[], .nil⟩

instance [DecidableEq β] : DecidableEq (NameMap β) := fun a b =>
  match decEq a.entries b.entries with
  | isTrue h => isTrue (by cases a; cases b; cases h; rfl)
  | isFalse h => isFalse fun e => h (e ▸ rfl)

/-! ### Looking up a name -/

/-- The value under `name` in a list of entries. -/
def lookup (name : String) : List (String × β) → Option β
  | [] => none
  | (n, v) :: rest => if n = name then some v else lookup name rest

/-- The value under `name`. -/
def get? (m : NameMap β) (name : String) : Option β := lookup name m.entries

theorem lookup_eq_none_of_lt {name : String} {entries : List (String × β)}
    (h : ∀ e ∈ entries, name < e.1) : lookup name entries = none := by
  induction entries with
  | nil => rfl
  | cons e rest ih =>
    have hne : e.1 ≠ name := fun heq => String.lt_irrefl name (heq ▸ h e (by simp))
    rw [lookup, if_neg hne]
    exact ih fun e he => h e (by simp [he])

theorem lookup_eq_some_iff {name : String} {v : β} {entries : List (String × β)}
    (h : entries.Pairwise fun a b => a.1 < b.1) :
    lookup name entries = some v ↔ (name, v) ∈ entries := by
  induction entries with
  | nil => simp [lookup]
  | cons e rest ih =>
    obtain ⟨n, w⟩ := e
    obtain ⟨hd, hrest⟩ := List.pairwise_cons.1 h
    by_cases hn : n = name
    · subst hn
      have hnot : (n, v) ∉ rest := fun hmem => String.lt_irrefl n (hd _ hmem)
      simp [lookup, hnot, eq_comm]
    · have hne : ¬name = n := fun h => hn h.symm
      simp [lookup, hn, hne, ih hrest]

/-- The entries are the names with their values. -/
theorem mem_entries_iff {m : NameMap β} {name : String} {v : β} :
    (name, v) ∈ m.entries ↔ m.get? name = some v :=
  (lookup_eq_some_iff m.ascending).symm

/-! ### Setting the value under one name -/

/-- Entries with the value under `name` set by `change`, which sees the value that stood there. -/
def alterEntries (name : String) (change : Option β → β) :
    List (String × β) → List (String × β)
  | [] => [(name, change none)]
  | (n, v) :: rest =>
    if name < n then (name, change none) :: (n, v) :: rest
    else if n = name then (n, change (some v)) :: rest
    else (n, v) :: alterEntries name change rest

theorem mem_alterEntries {name : String} {change : Option β → β} {entries : List (String × β)}
    {e : String × β} (h : e ∈ alterEntries name change entries) :
    e.1 = name ∨ ∃ v, (e.1, v) ∈ entries := by
  induction entries with
  | nil => simp [alterEntries] at h; exact .inl (by rw [h])
  | cons d rest ih =>
    obtain ⟨n, v⟩ := d
    rw [alterEntries] at h
    split at h
    · rcases List.mem_cons.1 h with rfl | h
      · exact .inl rfl
      · exact .inr ⟨e.2, h⟩
    · split at h
      · rename_i heq
        rcases List.mem_cons.1 h with rfl | h
        · exact .inl heq
        · exact .inr ⟨e.2, by simp [h]⟩
      · rcases List.mem_cons.1 h with rfl | h
        · exact .inr ⟨v, by simp⟩
        · rcases ih h with h | ⟨w, h⟩
          · exact .inl h
          · exact .inr ⟨w, by simp [h]⟩

theorem alterEntries_ascending (name : String) (change : Option β → β)
    {entries : List (String × β)} (h : entries.Pairwise fun a b => a.1 < b.1) :
    (alterEntries name change entries).Pairwise fun a b => a.1 < b.1 := by
  induction entries with
  | nil => simp [alterEntries]
  | cons d rest ih =>
    obtain ⟨n, v⟩ := d
    obtain ⟨hd, hrest⟩ := List.pairwise_cons.1 h
    rw [alterEntries]
    split
    · rename_i hlt
      refine List.pairwise_cons.2 ⟨fun e he => ?_, h⟩
      rcases List.mem_cons.1 he with rfl | he
      · exact hlt
      · exact String.lt_trans hlt (hd e he)
    · split
      · exact List.pairwise_cons.2 ⟨hd, hrest⟩
      · rename_i hlt hne
        refine List.pairwise_cons.2 ⟨fun e he => ?_, ih hrest⟩
        rcases mem_alterEntries he with heq | ⟨w, hw⟩
        · rw [heq]
          exact Std.lt_of_le_of_ne (Std.not_lt.1 hlt) hne
        · exact hd (e.1, w) hw

/-- The map with the value under `name` set by `change`, which sees the value that stood there. -/
def alter (m : NameMap β) (name : String) (change : Option β → β) : NameMap β :=
  ⟨alterEntries name change m.entries, alterEntries_ascending name change m.ascending⟩

theorem lookup_alterEntries (name other : String) (change : Option β → β)
    {entries : List (String × β)} (h : entries.Pairwise fun a b => a.1 < b.1) :
    lookup other (alterEntries name change entries) =
      if name = other then some (change (lookup name entries)) else lookup other entries := by
  induction entries with
  | nil => simp [alterEntries, lookup]
  | cons d rest ih =>
    obtain ⟨n, v⟩ := d
    obtain ⟨hd, hrest⟩ := List.pairwise_cons.1 h
    rw [alterEntries]
    split
    · rename_i hlt
      have hne : n ≠ name := fun heq => String.lt_irrefl n (by rw [heq] at hlt; exact heq ▸ hlt)
      have hnone : lookup name rest = none :=
        lookup_eq_none_of_lt fun e he => String.lt_trans hlt (hd e he)
      by_cases hno : name = other
      · subst hno
        simp [lookup, hne, hnone]
      · simp [lookup, hno]
    · split
      · rename_i heq
        subst heq
        by_cases hno : n = other
        · simp [lookup, hno]
        · simp [lookup, hno]
      · rename_i hlt hne
        by_cases hn : n = other
        · subst hn
          have : ¬name = n := fun h => hne h.symm
          simp [lookup, this]
        · simp [lookup, hn, ih hrest, hne]

theorem get?_alter (m : NameMap β) (name other : String) (change : Option β → β) :
    (m.alter name change).get? other =
      if name = other then some (change (m.get? name)) else m.get? other :=
  lookup_alterEntries name other change m.ascending

/-- The map with `value` under `name`, whatever stood there. -/
def put (m : NameMap β) (name : String) (value : β) : NameMap β :=
  m.alter name fun _ => value

theorem get?_put (m : NameMap β) (name other : String) (value : β) :
    (m.put name value).get? other = if name = other then some value else m.get? other :=
  get?_alter m name other _

/-- The map of a list of pairs; of several pairs with one name the last one counts. -/
def ofPairs (pairs : List (String × β)) : NameMap β :=
  pairs.foldl (fun m p => m.put p.1 p.2) empty

/-! ### The common names of two maps -/

/-- The names that both maps hold, each with its two values combined. -/
def intersect (combine : β → β → β) (a b : NameMap β) : NameMap β where
  entries := a.entries.filterMap fun e => (b.get? e.1).map fun v => (e.1, combine e.2 v)
  ascending := by
    refine List.pairwise_filterMap.2 (a.ascending.imp fun h e he d hd => ?_)
    obtain ⟨_, _, rfl⟩ := Option.map_eq_some_iff.1 he
    obtain ⟨_, _, rfl⟩ := Option.map_eq_some_iff.1 hd
    exact h

theorem get?_intersect (combine : β → β → β) (a b : NameMap β) (name : String) :
    (intersect combine a b).get? name =
      (a.get? name).bind fun v => (b.get? name).map fun w => combine v w := by
  obtain ⟨entries, ascending⟩ := a
  simp only [get?, intersect]
  induction entries with
  | nil => rfl
  | cons e rest ih =>
    obtain ⟨n, v⟩ := e
    obtain ⟨hd, hrest⟩ := List.pairwise_cons.1 ascending
    have ih := ih hrest
    by_cases hn : n = name
    · subst hn
      cases hb : lookup n b.entries with
      | none =>
        have hnone : lookup n rest = none := lookup_eq_none_of_lt hd
        rw [hnone] at ih
        simp only [List.filterMap_cons, hb, Option.map_none, lookup, if_pos]
        rw [ih]
        rfl
      | some w => simp [hb, lookup]
    · cases hb : lookup n b.entries with
      | none => simpa [List.filterMap_cons, hb, lookup, hn] using ih
      | some w => simpa [List.filterMap_cons, hb, lookup, hn] using ih

/-! ### Extensionality -/

private theorem eq_of_lookup_eq {a b : List (String × β)}
    (ha : a.Pairwise fun x y => x.1 < y.1) (hb : b.Pairwise fun x y => x.1 < y.1)
    (h : ∀ name, lookup name a = lookup name b) : a = b := by
  induction a generalizing b with
  | nil =>
    cases b with
    | nil => rfl
    | cons e rest => simpa [lookup] using h e.1
  | cons d rest ih =>
    cases b with
    | nil => simpa [lookup] using h d.1
    | cons e rest' =>
      obtain ⟨hd, hrest⟩ := List.pairwise_cons.1 ha
      obtain ⟨he, hrest'⟩ := List.pairwise_cons.1 hb
      have hname : d.1 = e.1 := by
        apply Decidable.byContradiction
        intro hne
        by_cases hlt : d.1 < e.1
        · have hnone : lookup d.1 (e :: rest') = none :=
            lookup_eq_none_of_lt fun x hx => by
              rcases List.mem_cons.1 hx with rfl | hx
              · exact hlt
              · exact String.lt_trans hlt (he x hx)
          have := h d.1
          rw [hnone] at this
          simp [lookup] at this
        · have hgt : e.1 < d.1 := Std.lt_of_le_of_ne (Std.not_lt.1 hlt) fun h => hne h.symm
          have hnone : lookup e.1 (d :: rest) = none :=
            lookup_eq_none_of_lt fun x hx => by
              rcases List.mem_cons.1 hx with rfl | hx
              · exact hgt
              · exact String.lt_trans hgt (hd x hx)
          have := h e.1
          rw [hnone] at this
          simp [lookup] at this
      obtain ⟨n, v⟩ := d
      obtain ⟨m, w⟩ := e
      obtain rfl : n = m := hname
      have hv : v = w := by simpa [lookup] using h n
      obtain rfl := hv
      refine congrArg _ (ih hrest hrest' fun name => ?_)
      by_cases hn : n = name
      · subst hn
        rw [lookup_eq_none_of_lt hd, lookup_eq_none_of_lt he]
      · simpa [lookup, hn] using h name

/-- Maps with the same values are equal: the order of the entries leaves no choice. -/
theorem ext_get? {a b : NameMap β} (h : ∀ name, a.get? name = b.get? name) : a = b := by
  obtain ⟨a, ha⟩ := a
  obtain ⟨b, hb⟩ := b
  obtain rfl : a = b := eq_of_lookup_eq ha hb h
  rfl

end NameMap

end StreamProgress
