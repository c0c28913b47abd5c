import StreamProgress.NameMap

/-!
# Maps of lists of pairs

A list of pairs may hold several values for one name. The map of the list keeps the last of them, and
a map is the map of its own entries, which hold one value for each name.

## Main results

* `NameMap.get?_ofPairs` — the value under a name is the last one
* `NameMap.ofPairs_entries` — the entries of a map give it back
-/

namespace StreamProgress

namespace NameMap

variable {β : Type} {name other : String} {pairs : List (String × β)}

/-- The values of a name in a list of pairs, in their order. -/
def valuesOf (name : String) (pairs : List (String × β)) : List β :=
  (pairs.filter fun e => e.1 = name).map Prod.snd

@[simp] theorem valuesOf_nil (name : String) : valuesOf name ([] : List (String × β)) = [] := rfl

theorem valuesOf_cons_self (name : String) (v : β) (pairs : List (String × β)) :
    valuesOf name ((name, v) :: pairs) = v :: valuesOf name pairs := by
  simp [valuesOf]

theorem valuesOf_cons_of_ne (h : other ≠ name) (v : β) (pairs : List (String × β)) :
    valuesOf name ((other, v) :: pairs) = valuesOf name pairs := by
  simp [valuesOf, h]

/-- Pairs with ascending names hold one value of a name at most. -/
theorem valuesOf_of_ascending (h : pairs.Pairwise fun a b => a.1 < b.1) (name : String) :
    valuesOf name pairs = (lookup name pairs).toList := by
  induction pairs with
  | nil => rfl
  | cons e pairs ih =>
    obtain ⟨other, v⟩ := e
    obtain ⟨hlt, hpairs⟩ := List.pairwise_cons.1 h
    rw [lookup]
    by_cases hname : other = name
    · subst hname
      rw [valuesOf_cons_self, ih hpairs, lookup_eq_none_of_lt hlt, if_pos rfl]
      rfl
    · rw [valuesOf_cons_of_ne hname, ih hpairs, if_neg hname]

/-- What stood in the map before counts only for names without a pair. -/
theorem get?_foldl_put (name : String) (pairs : List (String × β)) (m : NameMap β) :
    (pairs.foldl (fun m e => m.put e.1 e.2) m).get? name =
      (valuesOf name pairs).getLast?.or (m.get? name) := by
  induction pairs generalizing m with
  | nil => rfl
  | cons e pairs ih =>
    obtain ⟨other, v⟩ := e
    rw [List.foldl_cons, ih, get?_put]
    by_cases hname : other = name
    · subst hname
      rw [if_pos rfl, valuesOf_cons_self, List.getLast?_cons]
      cases (valuesOf other pairs).getLast? <;> rfl
    · rw [if_neg hname, valuesOf_cons_of_ne hname]

/-- **The last value of a name counts.** -/
theorem get?_ofPairs (pairs : List (String × β)) (name : String) :
    (ofPairs pairs).get? name = (valuesOf name pairs).getLast? := by
  rw [ofPairs, get?_foldl_put]
  exact Option.or_none

/-- The entries of a map give it back. -/
theorem ofPairs_entries (m : NameMap β) : ofPairs m.entries = m := by
  refine ext_get? ?_
  intro name
  rw [get?_ofPairs, valuesOf_of_ascending m.ascending, get?]
  cases lookup name m.entries <;> rfl

end NameMap

end StreamProgress
