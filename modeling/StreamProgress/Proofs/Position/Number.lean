import StreamProgress.Proofs.Position.Lattice

/-!
# The number of a position

A position is reported by one number, which is the index or the sum of the offsets. The sum stops at
the largest count at whichever offset it gets there. Nothing is ever taken away again, so where it
stops makes no difference, and the number is the true sum cut off at the largest count.

Two sums may be over different partitions, so little can be concluded from two numbers. What holds
regardless is that a position which covers another one has no smaller number: it has no smaller true
sum (`Offsets.sum_le_sum`), and cutting off respects the order.

## Main definitions

* `Offsets.sum` — the true sum of the offsets

## Main results

* `Offsets.toNat_total` — the sum is the true one, cut off once
* `Offsets.total_le_total` — covering offsets have no smaller sum
* `Position.number_le_number` — a covering position has no smaller number
-/

namespace StreamProgress

namespace Count

variable {m n : UInt64}

theorem sub_le_sub (h : m ≤ n) (i : UInt64) : sub i n ≤ sub i m := by
  rw [UInt64.le_iff_toNat_le] at *
  rw [toNat_sub, toNat_sub]
  omega

end Count

namespace Offsets

variable {a b : Offsets}

/-! ### The true sum -/

/-- The sum of the offsets in entries, as a natural number. -/
def sumOf : List (String × UInt64) → ℕ
  | [] => 0
  | e :: entries => e.2.toNat + sumOf entries

/-- The sum of all offsets, as a natural number. -/
def sum (a : Offsets) : ℕ := sumOf a.entries

/-- Cutting off at every step is cutting off at the end, from any count that the sum starts at. -/
theorem toNat_foldl_add (entries : List (String × UInt64)) (start : UInt64) :
    (entries.foldl (fun sum e => Count.add sum e.2) start).toNat =
      min (start.toNat + sumOf entries) (UInt64.size - 1) := by
  induction entries generalizing start with
  | nil =>
    have hlt : start.toNat < UInt64.size := start.toNat_lt
    rw [List.foldl_nil, sumOf]
    omega
  | cons e entries ih =>
    rw [List.foldl_cons, ih, Count.toNat_add, sumOf]
    omega

/-- **The sum of offsets is the true sum, cut off at the largest count.** -/
theorem toNat_total (a : Offsets) : a.total.toNat = min a.sum (UInt64.size - 1) := by
  rw [total, toNat_foldl_add, UInt64.toNat_zero, Nat.zero_add, sum]

/-! ### Sums and coverage -/

/-- Entries that are exceeded by other entries, name by name, have no larger sum. The induction is on
the larger entries: their first name is the first one of the smaller entries, or none of them. -/
theorem sumOf_le_sumOf {entries larger : List (String × UInt64)}
    (hentries : entries.Pairwise fun d e => d.1 < e.1)
    (hlarger : larger.Pairwise fun d e => d.1 < e.1)
    (h : ∀ d ∈ entries, ∃ e ∈ larger, e.1 = d.1 ∧ d.2 ≤ e.2) : sumOf entries ≤ sumOf larger := by
  induction larger generalizing entries with
  | nil =>
    cases entries with
    | nil => exact le_rfl
    | cons d rest =>
      obtain ⟨e, he, -⟩ := h d (List.mem_cons_self ..)
      cases he
  | cons first larger ih =>
    obtain ⟨hfirst, hascending⟩ := List.pairwise_cons.1 hlarger
    -- an entry with a later name is exceeded by a later entry
    have hlater : ∀ d ∈ entries, first.1 < d.1 → ∃ e ∈ larger, e.1 = d.1 ∧ d.2 ≤ e.2 := by
      intro d hd hlt
      obtain ⟨e, he, hname, hle⟩ := h d hd
      obtain rfl | he := List.mem_cons.1 he
      · rw [hname] at hlt
        exact absurd hlt (String.lt_irrefl _)
      · exact ⟨e, he, hname, hle⟩
    cases entries with
    | nil => exact Nat.zero_le _
    | cons d rest =>
      obtain ⟨hd, hrest⟩ := List.pairwise_cons.1 hentries
      obtain ⟨e, he, hname, hle⟩ := h d (List.mem_cons_self ..)
      obtain rfl | he := List.mem_cons.1 he
      · have hsum : sumOf rest ≤ sumOf larger := ih hrest hascending fun d' hd' =>
          hlater d' (List.mem_cons_of_mem _ hd') (hname ▸ hd d' hd')
        exact Nat.add_le_add (UInt64.le_iff_toNat_le.1 hle) hsum
      · have hlt : first.1 < d.1 := hname ▸ hfirst e he
        have hsum : sumOf (d :: rest) ≤ sumOf larger := by
          refine ih hentries hascending fun d' hd' => hlater d' hd' ?_
          obtain rfl | hd'' := List.mem_cons.1 hd'
          · exact hlt
          · exact String.lt_trans hlt (hd d' hd'')
        exact hsum.trans (Nat.le_add_left ..)

/-- Covering offsets have no smaller true sum. -/
theorem sum_le_sum (h : a ≤ b) : a.sum ≤ b.sum := by
  refine sumOf_le_sumOf a.ascending b.ascending ?_
  rintro ⟨name, n⟩ hn
  obtain ⟨m, hm, hle⟩ := covers_iff.1 (le_def.1 h) name n (NameMap.mem_entries_iff.1 hn)
  exact ⟨(name, m), NameMap.mem_entries_iff.2 hm, rfl, hle⟩

/-- **Covering offsets have no smaller sum,** whether or not a sum fits. -/
theorem total_le_total (h : a ≤ b) : a.total ≤ b.total := by
  have hsum := sum_le_sum h
  rw [UInt64.le_iff_toNat_le, toNat_total, toNat_total]
  omega

end Offsets

namespace Position

variable {p q : Position}

/-- **A covering position has no smaller number.** -/
theorem number_le_number (h : p ≤ q) : p.number ≤ q.number := by
  obtain ⟨i, j, rfl, rfl⟩ | ⟨a, b, rfl, rfl⟩ := exists_of_kind_eq (kind_eq_of_le h)
  · exact sequence_le_sequence.1 h
  · exact Offsets.total_le_total (partitions_le_partitions.1 h)

end Position

end StreamProgress
