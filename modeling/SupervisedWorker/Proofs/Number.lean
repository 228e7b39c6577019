/-!
# Words as numbers

Limits and counters are words of 32 bits. What is counted and compared with them are natural
numbers.

Results:
1. `toNat_max`: the larger of two words is the larger of their numbers.
2. `toNat_succ`: a counter below a limit can be counted up.
-/

namespace SupervisedWorker

namespace Word

theorem toNat_max (a b : UInt32) : (max a b).toNat = max a.toNat b.toNat := by
  have hmax : max a b = if a ≤ b then b else a := rfl
  rw [hmax]
  split
  · rename_i hle
    exact (Nat.max_eq_right (UInt32.le_iff_toNat_le.mp hle)).symm
  · rename_i hle
    exact (Nat.max_eq_left (Nat.le_of_not_le (mt UInt32.le_iff_toNat_le.mpr hle))).symm

/-- A word that is below another one does not wrap when it is counted up. -/
theorem toNat_succ {a b : UInt32} (h : a.toNat < b.toNat) : (a + 1).toNat = a.toNat + 1 := by
  rw [UInt32.toNat_add]
  exact Nat.mod_eq_of_lt (Nat.lt_of_le_of_lt h b.toNat_lt)

end Word

end SupervisedWorker
