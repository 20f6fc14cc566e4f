import Mathlib.Data.Finmap
import Mathlib.Tactic

/-! Account stores keyed by address, and the number of accounts with a given
property. Writing or closing one account leaves the others, and moves that
number by what the account counted before and counts after. -/

abbrev Accounts (κ ν : Type) := Finmap fun _ : κ => ν

namespace Accounts

variable {κ ν : Type} [DecidableEq κ]

/-- An account that is there after a write was written or was there before. -/
theorem lookup_insert_cases {m : Accounts κ ν} {a k : κ} {b v : ν}
    (h : (m.insert a b).lookup k = some v) : (k = a ∧ b = v) ∨ (k ≠ a ∧ m.lookup k = some v) := by
  by_cases hk : k = a
  · rw [hk, Finmap.lookup_insert] at h
    exact .inl ⟨hk, Option.some.inj h⟩
  · rw [Finmap.lookup_insert_of_ne _ hk] at h
    exact .inr ⟨hk, h⟩

theorem lookup_of_erase {m : Accounts κ ν} {a k : κ} {v : ν}
    (h : (m.erase a).lookup k = some v) : k ≠ a ∧ m.lookup k = some v := by
  have hk : k ≠ a := fun e => by rw [e, Finmap.lookup_erase] at h; cases h
  rw [Finmap.lookup_erase_ne hk] at h
  exact ⟨hk, h⟩

/-- What holds of every account and of what is written holds after the write. -/
theorem forall_insert {p : κ → ν → Prop} {m : Accounts κ ν} {a : κ} {b : ν}
    (hm : ∀ k v, m.lookup k = some v → p k v) (hb : p a b) :
    ∀ k v, (m.insert a b).lookup k = some v → p k v := by
  intro k v h
  rcases lookup_insert_cases h with ⟨rfl, rfl⟩ | ⟨-, h⟩
  · exact hb
  · exact hm k v h

theorem forall_erase {p : κ → ν → Prop} {m : Accounts κ ν} {a : κ}
    (hm : ∀ k v, m.lookup k = some v → p k v) : ∀ k v, (m.erase a).lookup k = some v → p k v :=
  fun k v h => hm k v (lookup_of_erase h).2

/-- The addresses of the accounts with property `p`. -/
def keysWhere (p : ν → Bool) (m : Accounts κ ν) : Finset κ :=
  m.keys.filter fun k => (m.lookup k).any p

def countWhere (p : ν → Bool) (m : Accounts κ ν) : ℕ := (keysWhere p m).card

theorem mem_keysWhere {p : ν → Bool} {m : Accounts κ ν} {k : κ} :
    k ∈ keysWhere p m ↔ (m.lookup k).any p = true := by
  unfold keysWhere
  rw [Finset.mem_filter, Finmap.mem_keys, ← Finmap.lookup_isSome]
  cases m.lookup k <;> simp

theorem keysWhere_erase (p : ν → Bool) (m : Accounts κ ν) (a : κ) :
    keysWhere p (m.erase a) = (keysWhere p m).erase a := by
  ext k
  rw [Finset.mem_erase, mem_keysWhere, mem_keysWhere]
  by_cases hk : k = a
  · subst hk
    simp only [Finmap.lookup_erase, Option.any_none, Bool.false_eq_true, ne_eq, not_true_eq_false,
      false_and]
  · simp only [Finmap.lookup_erase_ne hk, ne_eq, hk, not_false_eq_true, true_and]

theorem keysWhere_insert (p : ν → Bool) (m : Accounts κ ν) (a : κ) (b : ν) :
    keysWhere p (m.insert a b) =
      if p b then insert a ((keysWhere p m).erase a) else (keysWhere p m).erase a := by
  ext k
  by_cases hk : k = a
  · subst hk
    rw [mem_keysWhere, Finmap.lookup_insert, Option.any_some]
    split_ifs with hb <;> simp [hb]
  · rw [mem_keysWhere, Finmap.lookup_insert_of_ne _ hk, ← mem_keysWhere]
    split_ifs <;> simp [hk]

theorem countWhere_erase (p : ν → Bool) (m : Accounts κ ν) (a : κ) :
    countWhere p (m.erase a) + (if (m.lookup a).any p then 1 else 0) = countWhere p m := by
  unfold countWhere
  rw [keysWhere_erase]
  split_ifs with h
  · exact Finset.card_erase_add_one (mem_keysWhere.2 h)
  · rw [Finset.erase_eq_of_notMem (mt mem_keysWhere.1 h), Nat.add_zero]

theorem countWhere_insert (p : ν → Bool) (m : Accounts κ ν) (a : κ) (b : ν) :
    countWhere p (m.insert a b) + (if (m.lookup a).any p then 1 else 0) =
      countWhere p m + (if p b then 1 else 0) := by
  have he := countWhere_erase p m a
  unfold countWhere at he ⊢
  rw [keysWhere_erase] at he
  rw [keysWhere_insert, ← he]
  cases hb : p b with
  | true =>
    rw [if_pos rfl, if_pos rfl, Finset.card_insert_of_notMem (Finset.notMem_erase a _)]
    omega
  | false =>
    rw [if_neg Bool.false_ne_true, if_neg Bool.false_ne_true]
    rfl

@[simp] theorem countWhere_empty (p : ν → Bool) : countWhere p (∅ : Accounts κ ν) = 0 := by
  unfold countWhere keysWhere
  rw [Finmap.keys_empty, Finset.filter_empty, Finset.card_empty]

theorem countWhere_pos {p : ν → Bool} {m : Accounts κ ν} {k : κ} {v : ν}
    (hk : m.lookup k = some v) (hv : p v = true) : 0 < countWhere p m :=
  Finset.card_pos.2 ⟨k, mem_keysWhere.2 (by rw [hk]; exact hv)⟩

theorem countWhere_eq_zero {p : ν → Bool} {m : Accounts κ ν}
    (h : ∀ k v, m.lookup k = some v → p v = false) : countWhere p m = 0 := by
  refine Finset.card_eq_zero.2 (Finset.eq_empty_of_forall_notMem ?_)
  intro k hk
  obtain ⟨v, hv, hp⟩ := (Option.any_eq_true _ _).1 (mem_keysWhere.1 hk)
  rw [h k v hv] at hp
  cases hp

theorem one_lt_countWhere {p : ν → Bool} {m : Accounts κ ν} {j k : κ} {u v : ν} (hjk : j ≠ k)
    (hj : m.lookup j = some u) (hk : m.lookup k = some v) (hu : p u = true) (hv : p v = true) :
    1 < countWhere p m :=
  Finset.one_lt_card.2 ⟨j, mem_keysWhere.2 (by rw [hj]; exact hu), k,
    mem_keysWhere.2 (by rw [hk]; exact hv), hjk⟩

theorem countWhere_true (m : Accounts κ ν) : countWhere (fun _ => true) m = m.keys.card := by
  unfold countWhere keysWhere
  refine congrArg _ (Finset.filter_true_of_mem ?_)
  intro k hk
  rw [Finmap.mem_keys, ← Finmap.lookup_isSome, Option.isSome_iff_exists] at hk
  obtain ⟨v, hv⟩ := hk
  rw [hv]; rfl

theorem card_insert_of_notMem {m : Accounts κ ν} {a : κ} (b : ν) (h : m.lookup a = none) :
    (m.insert a b).keys.card = m.keys.card + 1 := by
  have := countWhere_insert (fun _ => true) m a b
  simpa [countWhere_true, h] using this

theorem card_insert_of_lookup {m : Accounts κ ν} {a : κ} {b : ν} (v : ν)
    (h : m.lookup a = some b) : (m.insert a v).keys.card = m.keys.card := by
  have := countWhere_insert (fun _ => true) m a v
  simpa [countWhere_true, h] using this

theorem card_erase_add_one {m : Accounts κ ν} {a : κ} {b : ν} (h : m.lookup a = some b) :
    (m.erase a).keys.card + 1 = m.keys.card := by
  have := countWhere_erase (fun _ => true) m a
  simpa [countWhere_true, h] using this

end Accounts
