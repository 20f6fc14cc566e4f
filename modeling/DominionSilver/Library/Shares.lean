import Mathlib.Order.GaloisConnection.Defs
import Mathlib.Tactic

/-! The share of an amount, rounded down, and the amounts that have a given share. Rounding up finds
the least of these amounts. -/

namespace Shares

variable {k d m n : ℕ}

/-- `k` parts in `d` of `n`, rounded down. -/
def share (k d n : ℕ) : ℕ := n * k / d

/-- The amount with a share of `m`, rounded down. -/
def whole (k d m : ℕ) : ℕ := m * d / k

/-- The amount with a share of `m`, rounded up. -/
def wholeUp (k d m : ℕ) : ℕ := (m * d + (k - 1)) / k

theorem share_mono (k d : ℕ) : Monotone (share k d) :=
  fun _ _ h => Nat.div_le_div_right (Nat.mul_le_mul_right k h)

theorem le_share_iff (hd : 0 < d) : m ≤ share k d n ↔ m * d ≤ n * k :=
  Nat.le_div_iff_mul_le hd

theorem wholeUp_le_iff (hk : 0 < k) : wholeUp k d m ≤ n ↔ m * d ≤ n * k := by
  rw [wholeUp, Nat.div_le_iff_le_mul hk]
  omega

/-- Rounding the amount up is adjoint to taking the share of it. -/
theorem gc (hk : 0 < k) (hd : 0 < d) : GaloisConnection (wholeUp k d) (share k d) :=
  fun _ _ => (wholeUp_le_iff hk).trans (le_share_iff hd).symm

theorem share_whole_le (hd : 0 < d) (m : ℕ) : share k d (whole k d m) ≤ m :=
  calc m * d / k * k / d ≤ m * d / d := Nat.div_le_div_right (Nat.div_mul_le_self _ _)
    _ = m := Nat.mul_div_cancel m hd

theorem whole_share_le (hk : 0 < k) (n : ℕ) : whole k d (share k d n) ≤ n :=
  calc n * k / d * d / k ≤ n * k / k := Nat.div_le_div_right (Nat.div_mul_le_self _ _)
    _ = n := Nat.mul_div_cancel n hk

theorem share_wholeUp (hk : 0 < k) (hkd : k ≤ d) (m : ℕ) : share k d (wholeUp k d m) = m := by
  have hd : 0 < d := hk.trans_le hkd
  apply le_antisymm
  · have hround : wholeUp k d m * k < d * (m + 1) :=
      calc wholeUp k d m * k ≤ m * d + (k - 1) := Nat.div_mul_le_self _ _
        _ < m * d + d := by omega
        _ = d * (m + 1) := by ring
    exact Nat.le_of_lt_succ (Nat.div_lt_of_lt_mul hround)
  · exact (gc hk hd).le_u_l m

/-- What is left when the other parts are taken off, rounded up. -/
theorem sub_ceil (hd : 0 < d) (hkd : k ≤ d) (n : ℕ) :
    n - (n * (d - k) + (d - 1)) / d = share k d n := by
  obtain ⟨j, rfl⟩ := Nat.exists_eq_add_of_le hkd
  have hparts : (k + j) * n = n * k + n * j := by ring
  rw [Nat.add_sub_cancel_left, share]
  rcases Nat.eq_zero_or_pos (n * j) with h0 | hpos
  · have hall : n * k = (k + j) * n := by omega
    rw [h0, zero_add, Nat.div_eq_of_lt (by omega), hall, Nat.mul_div_cancel_left n hd, Nat.sub_zero]
  · have hup : n * j + (k + j - 1) = n * j - 1 + (k + j) := by omega
    have hrest : n * k = (k + j) * n - (n * j - 1 + 1) := by omega
    rw [hup, Nat.add_div_right _ hd, hrest, Nat.mul_sub_div _ _ _ (by omega)]

end Shares
