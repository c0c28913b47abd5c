/-!
# Saturating arithmetic on 64-bit counts

Positions, offsets and time stamps are 64-bit counts. A sum that no longer fits stops at the
largest count, and a difference that would be negative stops at zero: a lag is never reported as
a huge number because some counter wrapped.

## Main results

* `Count.toNat_add` — a sum is the true sum, cut off at `Count.largest`
* `Count.toNat_sub` — a difference is the truncated difference of natural numbers
-/

namespace StreamProgress

namespace Count

/-- The largest 64-bit count, `2 ^ 64 - 1`. -/
def largest : UInt64 := 18446744073709551615

@[simp] theorem toNat_largest : largest.toNat = UInt64.size - 1 := rfl

/-- The sum of two counts, or the largest count if the sum does not fit. -/
def add (a b : UInt64) : UInt64 :=
  if largest - a < b then largest else a + b

/-- The difference of two counts, or zero if it would be negative. -/
def sub (a b : UInt64) : UInt64 :=
  if b ≤ a then a - b else 0

theorem toNat_add (a b : UInt64) :
    (add a b).toNat = min (a.toNat + b.toNat) (UInt64.size - 1) := by
  have ha := a.toNat_lt
  have hb := b.toNat_lt
  have hsize : UInt64.size = 2 ^ 64 := rfl
  have hle : a ≤ largest := by rw [UInt64.le_iff_toNat_le, toNat_largest]; omega
  have hsub : (largest - a).toNat = UInt64.size - 1 - a.toNat := by
    rw [UInt64.toNat_sub_of_le _ _ hle, toNat_largest]
  unfold add
  split
  · rename_i h
    rw [UInt64.lt_iff_toNat_lt, hsub] at h
    rw [toNat_largest]
    omega
  · rename_i h
    rw [UInt64.lt_iff_toNat_lt, hsub] at h
    rw [UInt64.toNat_add]
    omega

theorem toNat_sub (a b : UInt64) : (sub a b).toNat = a.toNat - b.toNat := by
  unfold sub
  split
  · rename_i h
    exact UInt64.toNat_sub_of_le _ _ h
  · rename_i h
    rw [UInt64.le_iff_toNat_le] at h
    rw [UInt64.toNat_zero]
    omega

end Count

end StreamProgress
