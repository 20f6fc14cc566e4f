import Mathlib.Tactic
import Mathlib.Data.Nat.Size

/-! Integers as double-precision numbers hold them. An integer below `2 ^ 53` is exact, a larger one
is rounded to 53 significant bits. So rounding never crosses an exact number, and a comparison with
one comes out as it would without rounding. -/

namespace Doubles

/-- The nearest number of 53 significant bits, the even one of two. -/
def roundNat (n : ℕ) : ℕ :=
  let unit := 2 ^ (n.size - 53)
  let q := n / unit
  let r := n % unit
  (if 2 * r < unit ∨ 2 * r = unit ∧ q % 2 = 0 then q else q + 1) * unit

def ofInt (z : ℤ) : ℤ := if 0 ≤ z then roundNat z.toNat else -roundNat (-z).toNat

/-- An integer that a double holds exactly, and no other integer rounds to. -/
def Safe (z : ℤ) : Prop := -2 ^ 53 < z ∧ z < 2 ^ 53

instance (z : ℤ) : Decidable (Safe z) := inferInstanceAs (Decidable (_ ∧ _))

theorem roundNat_of_lt {n : ℕ} (h : n < 2 ^ 53) : roundNat n = n := by
  have hunit : n.size - 53 = 0 := Nat.sub_eq_zero_of_le (Nat.size_le.2 h)
  simp [roundNat, hunit, Nat.mod_one]

theorem le_roundNat {n : ℕ} (h : 2 ^ 53 ≤ n) : 2 ^ 53 ≤ roundNat n := by
  have hsize : 53 < n.size := Nat.lt_size.2 h
  obtain ⟨e, he⟩ : ∃ e, n.size = 53 + e := ⟨n.size - 53, by omega⟩
  have htop : 2 ^ (52 + e) ≤ n := Nat.lt_size.1 (by omega)
  have hq : 2 ^ 52 ≤ n / 2 ^ e := by
    rw [Nat.le_div_iff_mul_le (Nat.two_pow_pos e), ← pow_add]
    exact htop
  have hunit : 2 ≤ 2 ^ e := Nat.le_self_pow (by omega) 2
  have hround : 2 ^ 52 * 2 ^ e ≤ roundNat n := by
    simp only [roundNat, he, Nat.add_sub_cancel_left]
    refine Nat.mul_le_mul_right _ ?_
    split_ifs <;> omega
  calc 2 ^ 53 = 2 ^ 52 * 2 := by norm_num
    _ ≤ 2 ^ 52 * 2 ^ e := Nat.mul_le_mul_left _ hunit
    _ ≤ roundNat n := hround

theorem ofInt_of_safe {z : ℤ} (h : Safe z) : ofInt z = z := by
  obtain ⟨hl, hu⟩ := h
  unfold ofInt
  split_ifs with hz
  · rw [roundNat_of_lt (by omega)]; omega
  · rw [roundNat_of_lt (by omega)]; omega

theorem le_ofInt {z : ℤ} (h : 2 ^ 53 ≤ z) : 2 ^ 53 ≤ ofInt z := by
  unfold ofInt
  rw [if_pos (by omega)]
  exact_mod_cast le_roundNat (n := z.toNat) (by omega)

theorem ofInt_le {z : ℤ} (h : z ≤ -2 ^ 53) : ofInt z ≤ -2 ^ 53 := by
  have hle : (2 : ℤ) ^ 53 ≤ roundNat (-z).toNat := by
    exact_mod_cast le_roundNat (n := (-z).toNat) (by omega)
  unfold ofInt
  rw [if_neg (by omega)]
  exact neg_le_neg hle

theorem ofInt_cases (z : ℤ) :
    2 ^ 53 ≤ z ∧ 2 ^ 53 ≤ ofInt z ∨ z ≤ -2 ^ 53 ∧ ofInt z ≤ -2 ^ 53 ∨ ofInt z = z := by
  rcases le_or_gt (2 ^ 53) z with hbig | hlt
  · exact .inl ⟨hbig, le_ofInt hbig⟩
  · rcases le_or_gt z (-2 ^ 53) with hsmall | hgt
    · exact .inr (.inl ⟨hsmall, ofInt_le hsmall⟩)
    · exact .inr (.inr (ofInt_of_safe ⟨hgt, hlt⟩))

/-- A rounded integer compares with an exact one as the integer itself does. -/
theorem ofInt_le_iff {z t : ℤ} (ht : Safe t) : ofInt z ≤ t ↔ z ≤ t := by
  obtain ⟨hl, hu⟩ := ht
  obtain ⟨h, h'⟩ | ⟨h, h'⟩ | h := ofInt_cases z <;> omega

theorem le_ofInt_iff {z t : ℤ} (ht : Safe t) : t ≤ ofInt z ↔ t ≤ z := by
  obtain ⟨hl, hu⟩ := ht
  obtain ⟨h, h'⟩ | ⟨h, h'⟩ | h := ofInt_cases z <;> omega

example : ofInt (2 ^ 53 + 1) = 2 ^ 53 ∧ ofInt (2 ^ 53 + 3) = 2 ^ 53 + 4 := by decide +kernel

end Doubles
