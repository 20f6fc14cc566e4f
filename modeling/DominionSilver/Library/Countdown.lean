import Mathlib.Tactic

/-! What a loop collects that counts down and skips where it finds nothing. -/

namespace Countdown

variable {β : Type}

/-- What `f` finds from `n` down to one, as long as the index is above `bound`. -/
def countdown (f : ℕ → Option β) (bound : ℤ) : ℕ → List β
  | 0 => []
  | n + 1 => if bound < (n + 1 : ℕ) then (f (n + 1)).toList ++ countdown f bound n else []

variable {f : ℕ → Option β} {bound : ℤ} {n : ℕ} {b : β}

theorem mem_countdown :
    b ∈ countdown f bound n ↔ ∃ i : ℕ, 0 < i ∧ bound < i ∧ i ≤ n ∧ f i = some b := by
  induction n with
  | zero =>
    refine iff_of_false List.not_mem_nil ?_
    rintro ⟨i, hpos, -, hle, -⟩
    omega
  | succ n ih =>
    unfold countdown
    split_ifs with hb
    · rw [List.mem_append, Option.mem_toList, ih]
      constructor
      · rintro (hf | ⟨i, hpos, hi, hle, hf⟩)
        · exact ⟨n + 1, Nat.succ_pos n, hb, le_rfl, hf⟩
        · exact ⟨i, hpos, hi, Nat.le_succ_of_le hle, hf⟩
      · rintro ⟨i, hpos, hi, hle, hf⟩
        rcases Nat.of_le_succ hle with hle | rfl
        · exact .inr ⟨i, hpos, hi, hle, hf⟩
        · exact .inl hf
    · -- the loop ends at the first index that is not above the bound
      refine iff_of_false List.not_mem_nil ?_
      rintro ⟨i, -, hi, hle, -⟩
      omega

/-- What is found shows its index, and comes in falling order of it. -/
theorem countdown_pairwise {index : β → ℤ} (hf : ∀ i b, f i = some b → index b = i) :
    (countdown f bound n).Pairwise fun a b => index b < index a := by
  induction n with
  | zero => exact .nil
  | succ n ih =>
    unfold countdown
    split_ifs with hb
    · refine List.pairwise_append.2 ⟨?_, ih, ?_⟩
      · cases f (n + 1) with
        | none => exact .nil
        | some a => exact List.pairwise_singleton _ a
      · intro a ha b hb
        obtain ⟨i, -, -, hle, hi⟩ := mem_countdown.1 hb
        rw [hf _ _ hi, hf _ _ (Option.mem_toList.1 ha)]
        omega
    · exact .nil

end Countdown
