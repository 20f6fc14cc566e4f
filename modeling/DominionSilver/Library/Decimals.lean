import Mathlib.Data.List.DropRight
import Mathlib.Data.Nat.Digits.Lemmas
import Mathlib.Data.Rat.Floor
import Mathlib.Tactic

/-! Decimal notation, the most significant digit first. A number is the value of its numeral, zeros
after the point do not count, and cutting the decimals off after some places rounds down. -/

namespace Decimals

/-- The number that the digits spell. -/
def value (ds : List ℕ) : ℕ := Nat.ofDigits 10 ds.reverse

/-- Every element is a digit. -/
def Digits (ds : List ℕ) : Prop := ∀ d ∈ ds, d < 10

section Values

variable {as bs ds : List ℕ} {n k : ℕ}

theorem value_append (as bs : List ℕ) :
    value (as ++ bs) = value as * 10 ^ bs.length + value bs := by
  rw [value, List.reverse_append, Nat.ofDigits_append, List.length_reverse, value, value]
  ring

@[simp] theorem value_zeros (k : ℕ) : value (List.replicate k 0) = 0 := by
  rw [value, List.reverse_replicate, Nat.ofDigits_replicate_zero]

theorem value_lt (h : Digits ds) : value ds < 10 ^ ds.length := by
  have := Nat.ofDigits_lt_base_pow_length (b := 10) (l := ds.reverse) (by norm_num)
    fun d hd => h d (List.mem_reverse.1 hd)
  rwa [List.length_reverse] at this

theorem Digits.append (ha : Digits as) (hb : Digits bs) : Digits (as ++ bs) := by
  intro d hd
  rcases List.mem_append.1 hd with hd | hd
  · exact ha d hd
  · exact hb d hd

theorem digits_zeros (k : ℕ) : Digits (List.replicate k 0) := by
  intro d hd
  rw [List.eq_of_mem_replicate hd]
  norm_num

/-- The digits of a number, one of them for zero. -/
def numeral (n : ℕ) : List ℕ := if n = 0 then [0] else (Nat.digits 10 n).reverse

@[simp] theorem value_numeral (n : ℕ) : value (numeral n) = n := by
  unfold value numeral
  split_ifs with h
  · rw [h]; rfl
  · rw [List.reverse_reverse, Nat.ofDigits_digits]

theorem digits_numeral (n : ℕ) : Digits (numeral n) := by
  unfold numeral
  split_ifs with h
  · exact fun d hd => List.mem_singleton.1 hd ▸ by norm_num
  · exact fun d hd => Nat.digits_lt_base (by norm_num) (List.mem_reverse.1 hd)

theorem length_numeral_le (h : n < 10 ^ (k + 1)) : (numeral n).length ≤ k + 1 := by
  unfold numeral
  split_ifs
  · exact Nat.succ_le_succ (Nat.zero_le k)
  · rw [List.length_reverse]
    exact (Nat.digits_length_le_iff (by norm_num) n).2 h

/-- The digits behind enough zeros to make up `width`. -/
def pad (width : ℕ) (ds : List ℕ) : List ℕ := List.replicate (width - ds.length) 0 ++ ds

@[simp] theorem value_pad (width : ℕ) (ds : List ℕ) : value (pad width ds) = value ds := by
  rw [pad, value_append, value_zeros, Nat.zero_mul, Nat.zero_add]

theorem length_pad {width : ℕ} (h : ds.length ≤ width) : (pad width ds).length = width := by
  rw [pad, List.length_append, List.length_replicate, Nat.sub_add_cancel h]

theorem Digits.pad (h : Digits ds) (width : ℕ) : Digits (pad width ds) := (digits_zeros _).append h

end Values

section Points

variable {whole frac : List ℕ}

/-- The number with these digits before and after the point. -/
def decimal (whole frac : List ℕ) : ℚ := value whole + value frac / 10 ^ frac.length

theorem decimal_zeros (whole frac : List ℕ) (k : ℕ) :
    decimal whole (frac ++ List.replicate k 0) = decimal whole frac := by
  have h10 : (10 : ℚ) ^ k ≠ 0 := by positivity
  unfold decimal
  rw [value_append, value_zeros, List.length_append, List.length_replicate, Nat.add_zero, pow_add,
    Nat.cast_mul, Nat.cast_pow, Nat.cast_ofNat, mul_div_mul_right _ _ h10]

theorem decimal_rdropWhile (whole frac : List ℕ) :
    decimal whole (frac.rdropWhile (· = 0)) = decimal whole frac := by
  have hzeros : frac.rtakeWhile (· = 0) =
      List.replicate (frac.rtakeWhile (· = 0)).length 0 :=
    List.eq_replicate_of_mem fun d hd => by simpa using List.mem_rtakeWhile_imp hd
  calc decimal whole (frac.rdropWhile (· = 0))
      = decimal whole (frac.rdropWhile (· = 0) ++ frac.rtakeWhile (· = 0)) := by
        rw [hzeros, decimal_zeros]
    _ = decimal whole frac := by rw [List.rdropWhile_append_rtakeWhile]

/-- The first `k` decimals, zeros where there are fewer. -/
def truncated (k : ℕ) (frac : List ℕ) : List ℕ := (frac ++ List.replicate k 0).take k

theorem value_truncated (k : ℕ) (h : Digits frac) :
    value (truncated k frac) = value frac * 10 ^ k / 10 ^ frac.length := by
  rcases Nat.le_total frac.length k with hk | hk
  · obtain ⟨j, rfl⟩ := Nat.exists_eq_add_of_le hk
    have htake : truncated (frac.length + j) frac = frac ++ List.replicate j 0 := by
      rw [truncated, List.take_length_add_append, List.take_replicate, Nat.min_eq_left]
      exact Nat.le_add_left _ _
    rw [htake, value_append, value_zeros, List.length_replicate, Nat.add_zero, pow_add, ← mul_assoc,
      mul_right_comm, Nat.mul_div_cancel _ (by positivity)]
  · obtain ⟨j, hj⟩ := Nat.exists_eq_add_of_le hk
    have hsplit : value frac = value (frac.take k) * 10 ^ j + value (frac.drop k) := by
      rw [← List.take_append_drop k frac, value_append, List.take_append_drop, List.length_drop, hj,
        Nat.add_sub_cancel_left]
    have hrest : value (frac.drop k) < 10 ^ j := by
      have hdrop : Digits (frac.drop k) := fun d hd => h d (List.mem_of_mem_drop hd)
      have := value_lt hdrop
      rwa [List.length_drop, hj, Nat.add_sub_cancel_left] at this
    have hdiv : value frac / 10 ^ j = value (frac.take k) := by
      rw [hsplit, Nat.mul_comm, Nat.mul_add_div (by positivity), Nat.div_eq_of_lt hrest,
        Nat.add_zero]
    rw [truncated, List.take_append_of_le_length hk, hj, pow_add, Nat.mul_comm (10 ^ k),
      Nat.mul_div_mul_right _ _ (by positivity), hdiv]

theorem floor_decimal (k : ℕ) (h : Digits frac) :
    ⌊decimal whole frac * 10 ^ k⌋ = (value whole * 10 ^ k + value (truncated k frac) : ℕ) := by
  have hshift : decimal whole frac * 10 ^ k = ((value whole * 10 ^ k : ℕ) : ℤ) +
      ((value frac * 10 ^ k : ℕ) : ℚ) / ((10 ^ frac.length : ℕ) : ℚ) := by
    unfold decimal
    push_cast
    ring
  rw [hshift, Int.floor_intCast_add, Rat.floor_natCast_div_natCast, value_truncated k h]
  push_cast
  ring

end Points

section Groups

variable {α : Type} [DecidableEq α] {sep : α}

/-- The digits in groups of three, from the least significant one. -/
def group (sep : α) : List α → List α
  | a :: b :: c :: d :: ds => a :: b :: c :: sep :: group sep (d :: ds)
  | ds => ds

theorem filter_group {ds : List α} (h : sep ∉ ds) : (group sep ds).filter (· ≠ sep) = ds := by
  induction ds using group.induct with
  | case1 a b c d ds ih =>
    simp only [List.mem_cons, not_or, ne_eq, decide_not] at h ih ⊢
    obtain ⟨ha, hb, hc, hd, hds⟩ := h
    simp [group, ih ⟨hd, hds⟩, Ne.symm ha, Ne.symm hb, Ne.symm hc]
  | case2 ds hds =>
    rw [group]
    · exact List.filter_eq_self.2 fun a ha => decide_eq_true fun he => h (he ▸ ha)
    · exact hds

end Groups

end Decimals
