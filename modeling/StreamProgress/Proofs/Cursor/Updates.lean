import StreamProgress.Proofs.Cursor.Raising
import StreamProgress.Proofs.Cursor.ReadBack
import StreamProgress.Proofs.Text.ByteOrder

/-!
# Partition offsets from lists of updates

Partition offsets are put together in four ways: they are raised by one partition at a time, joined
with other offsets, made of a list of pairs, and read from text. Updates only raise, so each of them is
a join with the offsets of one partition, and what a list of updates leads to is a least upper bound. A
bound does not depend on the order of what it bounds or on what is repeated.

## The largest and the last

Raising keeps the largest offset of a partition and a list of pairs keeps the last. The two differ as
soon as a partition occurs twice with its offsets descending. A document is a list of pairs, so the
last member of a name counts there too (`Cursor.parse_of_arranged_listing`).

## Main results

* `Offsets.get?_raiseAll` — the largest offset of every partition
* `Offsets.raiseAll_congr` — order and repetition do not matter
* `Cursor.updates_canonical` — updates, joins, pairs and documents
-/

namespace StreamProgress

namespace Offsets

variable {a b : Offsets} {updates others : List (String × UInt64)}

/-- The offsets of one partition. -/
def single (update : String × UInt64) : Offsets := .ofPairs [update]

/-- Offsets raised by a list of updates, one after the other. -/
def raiseAll (a : Offsets) (updates : List (String × UInt64)) : Offsets :=
  updates.foldl (fun a update => a.raise update.1 update.2) a

@[simp] theorem raiseAll_nil (a : Offsets) : a.raiseAll [] = a := rfl

theorem raiseAll_cons (a : Offsets) (update : String × UInt64) (updates : List (String × UInt64)) :
    a.raiseAll (update :: updates) = (a.raise update.1 update.2).raiseAll updates := rfl

/-- To raise one partition is to join its offsets. -/
theorem raise_eq_sup (a : Offsets) (update : String × UInt64) :
    a.raise update.1 update.2 = a ⊔ single update := rfl

/-- **Updates lead to a least upper bound** of what was there and of all updates. -/
theorem raiseAll_le_iff :
    a.raiseAll updates ≤ b ↔ a ≤ b ∧ ∀ update ∈ updates, single update ≤ b := by
  induction updates generalizing a with
  | nil => simp
  | cons update updates ih =>
    rw [raiseAll_cons, ih, raise_eq_sup, sup_le_iff, List.forall_mem_cons, and_assoc]

/-- Updates in another order, or some of them more than once, lead to the same offsets. -/
theorem raiseAll_congr (h : ∀ update, update ∈ others ↔ update ∈ updates) :
    a.raiseAll others = a.raiseAll updates := by
  refine eq_of_forall_ge_iff ?_
  intro b
  rw [raiseAll_le_iff, raiseAll_le_iff]
  simp only [h]

/-- **The offset of a partition is the largest** of what it was and of its updates. -/
theorem get?_raiseAll (a : Offsets) (updates : List (String × UInt64)) (partition : String) :
    (a.raiseAll updates).get? partition =
      ((a.get? partition).toList ++ NameMap.valuesOf partition updates).max? := by
  induction updates generalizing a with
  | nil => cases h : a.get? partition <;> simp [h]
  | cons update updates ih =>
    obtain ⟨name, offset⟩ := update
    rw [raiseAll_cons, ih, get?_raise]
    by_cases hname : name = partition
    · subst hname
      rw [if_pos rfl, NameMap.valuesOf_cons_self]
      cases a.get? name <;> rfl
    · rw [if_neg hname, NameMap.valuesOf_cons_of_ne hname]

end Offsets

namespace Cursor

variable {a : Offsets} {updates pairs : List (String × UInt64)} {v : Json} {text : String}

/-- Raising by updates is raising by the cursors of one partition each. -/
theorem raiseAll_single (a : Offsets) (updates : List (String × UInt64)) :
    (partitions a).raiseAll (updates.map fun update => .partitions (Offsets.single update)) =
      .ok (partitions (a.raiseAll updates)) := by
  induction updates generalizing a with
  | nil => rfl
  | cons update updates ih => exact ih (a.raise update.1 update.2)

/-! ### Documents -/

/-- The value that lists pairs of partitions and offsets, in their order. -/
def pairsToJson (pairs : List (String × UInt64)) : Json :=
  .object (pairs.map fun e => (e.1, .count e.2))

/-- The document that lists pairs of partitions and offsets. -/
def listing (pairs : List (String × UInt64)) : Json :=
  .object [tag .partitionOffsets, ("offsets", pairsToJson pairs)]

theorem text_partitions (a : Offsets) : (partitions a).text = (listing a.entries).text := rfl

theorem offsetsOfJson_pairsToJson (pairs : List (String × UInt64)) :
    offsetsOfJson (pairsToJson pairs) = .ok (.ofPairs pairs) :=
  offsetsOfMembers_map pairs .empty

/-- **Pairs in a document are put together like pairs in a list,** in any layout and any text of the
document. -/
theorem parse_of_arranged_listing (h : Arranged .partitionOffsets [("offsets", pairsToJson pairs)] v)
    (hdepth : v.depth ≤ 127) (htext : text.toList ∈ v.documents) :
    parse text = .ok (partitions (.ofPairs pairs)) := by
  have harranged := h
  obtain ⟨members, _, rfl, -, -⟩ := h
  have htype : called "type" members = [tag .partitionOffsets] :=
    harranged.called_type (by simp [Kind.fieldNames])
  have hfield : called "offsets" members = [("offsets", pairsToJson pairs)] :=
    harranged.called_field (.head _) le_rfl
  rw [parse_of_called_type htype htext, Json.maxNesting, if_neg (Nat.not_lt.2 hdepth)]
  show (soleField "offsets" offsetsOfJson none _ >>= _).mapError _ = _
  rw [soleField_eq ((called_filter_type (by decide)).trans hfield), offsetsOfJson_pairsToJson]
  rfl

/-- **Partition offsets are the same however they are put together.**

* Raising by updates one after the other is raising by the cursor of each update, and does not fail.
* Every partition has the largest offset of what it had and of its updates, whatever their order, and
  none if there are none.
* Other updates with the same members lead to the same offsets and the same text.
* The text lists every partition once, with the bytes of the names ascending.
* A document that lists pairs is read as the map of the pairs, in any layout and any text, and the
  last pair of a partition counts. -/
theorem updates_canonical (a : Offsets) (updates pairs : List (String × UInt64)) :
    (partitions a).raiseAll (updates.map fun update => .partitions (Offsets.single update)) =
        .ok (partitions (a.raiseAll updates)) ∧
      (∀ partition, (a.raiseAll updates).get? partition =
        ((a.get? partition).toList ++ NameMap.valuesOf partition updates).max?) ∧
      (∀ others : List (String × UInt64), (∀ update, update ∈ others ↔ update ∈ updates) →
        a.raiseAll others = a.raiseAll updates ∧
          (partitions (a.raiseAll others)).text = (partitions (a.raiseAll updates)).text) ∧
      (∃ entries, (partitions (a.raiseAll updates)).text = (listing entries).text ∧
        entries.Pairwise (fun e e' => Utf8.bytes e.1 < Utf8.bytes e'.1) ∧
        ∀ partition n, (partition, n) ∈ entries ↔ (a.raiseAll updates).get? partition = some n) ∧
      (∀ partition, (NameMap.ofPairs pairs).get? partition =
        (NameMap.valuesOf partition pairs).getLast?) ∧
      ∀ v text, Arranged .partitionOffsets [("offsets", pairsToJson pairs)] v → v.depth ≤ 127 →
        text.toList ∈ v.documents → parse text = .ok (partitions (.ofPairs pairs)) := by
  refine ⟨raiseAll_single a updates, Offsets.get?_raiseAll a updates, ?congr, ?entries,
    NameMap.get?_ofPairs pairs, fun v text => parse_of_arranged_listing⟩
  case congr =>
    intro others h
    rw [Offsets.raiseAll_congr h]
    exact ⟨rfl, rfl⟩
  case entries =>
    refine ⟨(a.raiseAll updates).entries, text_partitions _, ?_, fun _ _ => NameMap.mem_entries_iff⟩
    exact (a.raiseAll updates).ascending.imp Utf8.bytes_lt_iff.2

/-- Updates of two partitions, one of them with its offsets descending: the largest offset counts when
they raise, in any order and with one of them twice, and the last one in a document. -/
theorem updates_canonical_descending :
    let a : Offsets := .ofPairs [("a", 3)]
    let updates : List (String × UInt64) := [("b", 5), ("a", 1), ("b", 2)]
    let others : List (String × UInt64) := [("a", 1), ("b", 2), ("b", 5), ("b", 2)]
    (a.raiseAll updates).get? "b" = some 5 ∧
      (partitions (a.raiseAll others)).text = (partitions (a.raiseAll updates)).text ∧
      parse (listing updates).text = .ok (partitions (.ofPairs updates)) ∧
      (NameMap.ofPairs updates).get? "b" = some 2 := by
  intro a updates others
  obtain ⟨-, hlargest, hcongr, -, hlast, hread⟩ := updates_canonical a updates updates
  have hsame : ∀ update, update ∈ others ↔ update ∈ updates := by
    intro update
    simp only [others, updates, List.mem_cons, List.not_mem_nil, or_false]
    tauto
  refine ⟨hlargest "b", (hcongr others hsame).2, ?_, hlast "b"⟩
  exact hread (listing updates) _ (arranged_of_eq rfl) (by decide) (Json.text_mem_documents rfl)

end Cursor

end StreamProgress
