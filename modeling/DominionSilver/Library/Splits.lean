import Mathlib.Algebra.Order.BigOperators.Group.List
import Mathlib.Algebra.Order.Sub.Basic
import Mathlib.Tactic

/-! Amounts in parts. A payout is superadditive when no split of an amount draws more out of it, a
charge is subadditive when no split of an amount lowers it. Rounding a payout down and a charge up
keeps each so, and so does taking a charge off an amount and paying one amount for another. -/

namespace Splits

section Monoids

variable {α β γ : Type*} [AddCommMonoid α] [AddCommMonoid β] [AddCommMonoid γ]

/-- The whole pays at least what its parts pay. -/
def Superadd [LE β] (f : α → β) : Prop := ∀ a b, f a + f b ≤ f (a + b)

/-- The whole costs at most what its parts cost. -/
def Subadd [LE β] (f : α → β) : Prop := ∀ a b, f (a + b) ≤ f a + f b

variable [PartialOrder β] [PartialOrder γ]

theorem Superadd.monotone [PartialOrder α] [CanonicallyOrderedAdd α] [CanonicallyOrderedAdd β]
    {f : α → β} (hf : Superadd f) : Monotone f := by
  intro a b hab
  obtain ⟨c, rfl⟩ := exists_add_of_le hab
  exact le_self_add.trans (hf a c)

theorem Superadd.comp [CanonicallyOrderedAdd β] [CanonicallyOrderedAdd γ] {f : α → β} {g : β → γ}
    (hg : Superadd g) (hf : Superadd f) : Superadd (g ∘ f) :=
  fun a b => (hg (f a) (f b)).trans (hg.monotone (hf a b))

/-- What is left once a charge of at most the whole is taken off. -/
theorem Subadd.superadd_sub [CanonicallyOrderedAdd β] [AddLeftReflectLE β] [Sub β] [OrderedSub β]
    {f : β → β} (hf : Subadd f) (hle : ∀ a, f a ≤ a) : Superadd fun a => a - f a := by
  intro a b
  show a - f a + (b - f b) ≤ a + b - f (a + b)
  rw [tsub_add_tsub_comm (hle a) (hle b)]
  exact tsub_le_tsub_left (hf a b) _

theorem Subadd.sum_le [IsOrderedAddMonoid β] {f : α → β} (hf : Subadd f) (h0 : f 0 ≤ 0)
    (l : List α) : f l.sum ≤ (l.map f).sum :=
  List.le_sum_of_subadditive f h0 hf l

theorem Superadd.sum_le [IsOrderedAddMonoid β] {f : α → β} (hf : Superadd f) (h0 : 0 ≤ f 0)
    (l : List α) : (l.map f).sum ≤ f l.sum := by
  induction l with
  | nil => simpa using h0
  | cons a l ih =>
    rw [List.map_cons, List.sum_cons, List.sum_cons]
    exact (add_le_add_right ih (f a)).trans (hf a l.sum)

end Monoids

theorem superadd_floor (k d : ℕ) : Superadd fun n => n * k / d := by
  intro a b
  show a * k / d + b * k / d ≤ (a + b) * k / d
  rw [add_mul]
  exact Nat.div_add_div_le_add_div

theorem subadd_ceil (k : ℕ) {d : ℕ} (hd : 0 < d) : Subadd fun n => (n * k + (d - 1)) / d := by
  intro a b
  show ((a + b) * k + (d - 1)) / d ≤ (a * k + (d - 1)) / d + (b * k + (d - 1)) / d
  have ha := Nat.lt_mul_div_succ (a * k + (d - 1)) hd
  have hb := Nat.lt_mul_div_succ (b * k + (d - 1)) hd
  apply Nat.le_of_lt_succ
  apply Nat.div_lt_of_lt_mul
  rw [mul_add] at ha hb
  rw [add_mul, Nat.succ_eq_add_one, mul_add, mul_add]
  omega

end Splits
