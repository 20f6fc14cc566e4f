import DominionSilver.Library.Buckets

/-! A sliding window counter over two buckets. What counts at a time is the current bucket and the
share of the previous one that the trailing window still covers. As long as nothing is added the
count never grows, and a longer window never counts less. Spends of at most half a budget in any
window never exceed the budget in the count. -/

namespace Sliding

/-- A start of zero is that of a counter never used. -/
structure Counter where
  start : ℤ
  current : ℕ
  prev : ℕ

variable {w t t' : ℤ} {c : Counter}

/-- How far into the bucket that starts at `s` the time is. -/
def into (w s t : ℤ) : ℤ := max 0 (min w (t - s))

/-- The share of an amount that counts `d` into the next bucket, rounded down. -/
def weighted (w : ℤ) (amount : ℕ) (d : ℤ) : ℕ := amount * (w - d).toNat / w.toNat

/-- The buckets moved forward to the time `t`. -/
def Counter.roll (w : ℤ) (c : Counter) (t : ℤ) : Counter :=
  if c.start = 0 then ⟨t, c.current, c.prev⟩
  else if 2 * w ≤ t - c.start then ⟨t, 0, 0⟩
  else if w ≤ t - c.start then ⟨c.start + w, 0, c.current⟩
  else c

def Counter.used (w : ℤ) (c : Counter) (t : ℤ) : ℕ :=
  (c.roll w t).current + weighted w (c.roll w t).prev (into w (c.roll w t).start t)

section Roll

variable (h0 : c.start ≠ 0)

theorem Counter.roll_unused (h : c.start = 0) : c.roll w t = ⟨t, c.current, c.prev⟩ := if_pos h

include h0

theorem Counter.roll_two (h : 2 * w ≤ t - c.start) : c.roll w t = ⟨t, 0, 0⟩ := by
  rw [roll, if_neg h0, if_pos h]

theorem Counter.roll_one (h : w ≤ t - c.start) (h2 : ¬ 2 * w ≤ t - c.start) :
    c.roll w t = ⟨c.start + w, 0, c.current⟩ := by
  rw [roll, if_neg h0, if_neg h2, if_pos h]

theorem Counter.roll_within (hw : 0 < w) (h : ¬ w ≤ t - c.start) : c.roll w t = c := by
  rw [roll, if_neg h0, if_neg (by omega), if_neg h]

end Roll

theorem into_bounds (hw : 0 ≤ w) (s : ℤ) : 0 ≤ into w s t ∧ into w s t ≤ w :=
  ⟨le_max_left _ _, max_le hw (min_le_left _ _)⟩

theorem into_mono (h : t ≤ t') (s : ℤ) : into w s t ≤ into w s t' :=
  max_le_max_left _ (min_le_min_left _ (by omega))

theorem weighted_le {amount : ℕ} {d : ℤ} (hd : 0 ≤ d) : weighted w amount d ≤ amount :=
  Nat.div_le_of_le_mul ((Nat.mul_le_mul_left _ (by omega)).trans_eq (Nat.mul_comm _ _))

theorem weighted_anti {amount : ℕ} {d d' : ℤ} (h : d ≤ d') :
    weighted w amount d' ≤ weighted w amount d :=
  Nat.div_le_div_right (Nat.mul_le_mul_left _ (by omega))

theorem Counter.used_le (c : Counter) (w t : ℤ) : c.used w t ≤ c.current + c.prev := by
  have hshare : ∀ amount s, weighted w amount (into w s t) ≤ amount := fun _ _ =>
    weighted_le (le_max_left _ _)
  unfold used roll
  split_ifs
  · exact Nat.add_le_add_left (hshare _ _) _
  · have hzero : weighted w 0 (into w t t) = 0 := Nat.le_zero.1 (hshare _ _)
    simp only [hzero, Nat.zero_add, Nat.zero_le]
  · exact (Nat.zero_add _).trans_le ((hshare _ _).trans (Nat.le_add_right _ _))
  · exact Nat.add_le_add_left (hshare _ _) _

/-- `c` holds no more than `d`, in the same buckets. -/
structure Counter.Le (c d : Counter) : Prop where
  start : c.start = d.start
  current : c.current ≤ d.current
  prev : c.prev ≤ d.prev

theorem Counter.Le.roll {d : Counter} (h : c.Le d) (w t : ℤ) : (c.roll w t).Le (d.roll w t) := by
  unfold Counter.roll
  rw [h.start]
  split_ifs
  · exact ⟨rfl, h.current, h.prev⟩
  · exact ⟨rfl, le_rfl, le_rfl⟩
  · exact ⟨rfl, le_rfl, h.current⟩
  · exact h

theorem Counter.Le.used {d : Counter} (h : c.Le d) (w t : ℤ) : c.used w t ≤ d.used w t := by
  obtain ⟨hstart, hcurrent, hprev⟩ := h.roll w t
  unfold Counter.used weighted
  rw [hstart]
  exact Nat.add_le_add hcurrent (Nat.div_le_div_right (Nat.mul_le_mul_right _ hprev))

theorem Counter.roll_prev_le (c : Counter) (w t : ℤ) :
    (c.roll w t).prev ≤ max c.current c.prev := by
  unfold roll
  split_ifs
  · exact le_max_right _ _
  · exact Nat.zero_le _
  · exact le_max_left _ _
  · exact le_max_right _ _

/-- The count as time passes: what stays in its bucket loses weight, what moves on to the previous
bucket starts with its full weight, and after two windows nothing is left. -/
theorem Counter.used_anti (hw : 0 < w) (h : t ≤ t') : c.used w t' ≤ c.used w t := by
  unfold used
  by_cases h0 : c.start = 0
  · have hz : ∀ s : ℤ, into w s s = 0 := fun s => by unfold into; omega
    simp only [roll_unused h0, hz, le_refl]
  by_cases htwo : 2 * w ≤ t' - c.start
  · rw [roll_two h0 htwo]
    simp only [weighted, Nat.zero_mul, Nat.zero_div, Nat.zero_add, Nat.zero_le]
  by_cases hone : w ≤ t' - c.start
  · rw [roll_one h0 hone htwo]
    by_cases hone' : w ≤ t - c.start
    · rw [roll_one h0 hone' (by omega)]
      exact Nat.add_le_add_left (weighted_anti (into_mono h _)) _
    · rw [roll_within h0 hw hone']
      calc 0 + weighted w c.current (into w (c.start + w) t')
          ≤ c.current := by rw [Nat.zero_add]; exact weighted_le (le_max_left _ _)
        _ ≤ c.current + weighted w c.prev (into w c.start t) := Nat.le_add_right _ _
  · rw [roll_within h0 hw hone, roll_within h0 hw (by omega)]
    exact Nat.add_le_add_left (weighted_anti (into_mono h _)) _

theorem weighted_le_weighted {w w' d d' : ℤ} (amount : ℕ) (hw : 0 ≤ w ∧ d ≤ w)
    (hw' : 0 < w' ∧ d' ≤ w') (h : (w - d) * w' ≤ (w' - d') * w) :
    weighted w amount d ≤ weighted w' amount d' := by
  have h : (w - d).toNat * w'.toNat ≤ (w' - d').toNat * w.toNat := by
    zify
    rwa [Int.toNat_of_nonneg (by omega), Int.toNat_of_nonneg (by omega),
      Int.toNat_of_nonneg (by omega), Int.toNat_of_nonneg (by omega)]
  unfold weighted
  rw [Nat.le_div_iff_mul_le (by omega)]
  calc amount * (w - d).toNat / w.toNat * w'.toNat
      ≤ w'.toNat * (amount * (w - d).toNat) / w.toNat := by
        rw [Nat.mul_comm]; exact Nat.mul_div_le_mul_div_assoc _ _ _
    _ ≤ amount * (w' - d').toNat := by
      refine Nat.div_le_of_le_mul ?_
      calc w'.toNat * (amount * (w - d).toNat)
          = amount * ((w - d).toNat * w'.toNat) := by ring
        _ ≤ amount * ((w' - d').toNat * w.toNat) := Nat.mul_le_mul_left _ h
        _ = w.toNat * (amount * (w' - d').toNat) := by ring

/-- What a longer window counts: every bucket keeps more of its weight, and is counted in full for
longer. -/
theorem Counter.used_lengthen {w' : ℤ} (hw : 0 < w) (h : w ≤ w') : c.used w t ≤ c.used w' t := by
  unfold used
  by_cases h0 : c.start = 0
  · have hz : ∀ w s : ℤ, 0 < w → into w s s = 0 := fun w s hw => by unfold into; omega
    have hall : ∀ w, 0 < w → weighted w c.prev 0 = c.prev := fun w hw => by
      rw [weighted, sub_zero, Nat.mul_div_cancel _ (by omega)]
    simp only [roll_unused h0, hz _ _ hw, hz _ _ (hw.trans_le h), hall _ hw,
      hall _ (hw.trans_le h), le_refl]
  by_cases htwo : 2 * w ≤ t - c.start
  · rw [roll_two h0 htwo]
    simp only [weighted, Nat.zero_mul, Nat.zero_div, Nat.zero_add, Nat.zero_le]
  by_cases hone : w ≤ t - c.start
  · rw [roll_one h0 hone htwo]
    simp only [Nat.zero_add]
    by_cases hone' : w' ≤ t - c.start
    · -- the bucket has become the previous one under both windows
      rw [roll_one h0 hone' (by omega)]
      simp only [Nat.zero_add]
      have hin : into w (c.start + w) t = t - c.start - w := by unfold into; omega
      have hin' : into w' (c.start + w') t = t - c.start - w' := by unfold into; omega
      rw [hin, hin']
      refine weighted_le_weighted _ (by omega) (by omega) ?_
      nlinarith
    · -- the longer window still counts it in full
      rw [roll_within h0 (by omega) hone']
      exact (weighted_le (le_max_left _ _)).trans (Nat.le_add_right _ _)
  · rw [roll_within h0 hw hone, roll_within h0 (by omega) (by omega)]
    have hin : into w' c.start t = into w c.start t := by unfold into; omega
    obtain ⟨hge, hle⟩ := @into_bounds w t hw.le c.start
    rw [hin]
    refine Nat.add_le_add_left (weighted_le_weighted _ (by omega) (by omega) ?_) _
    nlinarith

/-- After two windows nothing counts, and after one nothing that was already in the previous
bucket. -/
theorem Counter.used_two (h0 : c.start ≠ 0) (h : 2 * w ≤ t - c.start) : c.used w t = 0 := by
  rw [used, roll_two h0 h]
  simp only [weighted, Nat.zero_mul, Nat.zero_div]

theorem Counter.used_idle (h0 : c.start ≠ 0) (h : w ≤ t - c.start) (hc : c.current = 0) :
    c.used w t = 0 := by
  by_cases h2 : 2 * w ≤ t - c.start
  · exact used_two h0 h2
  · rw [used, roll_one h0 h h2, hc]
    simp only [weighted, Nat.zero_mul, Nat.zero_div]

theorem Counter.used_empty (s : ℤ) : used w ⟨s, 0, 0⟩ t = 0 := by
  unfold used roll
  split_ifs <;> simp only [weighted, Nat.zero_mul, Nat.zero_div]

/-- A counter that was never used holds nothing. -/
def Counter.Sound (c : Counter) : Prop := 0 < c.start ∨ c.start = 0 ∧ c.current = 0 ∧ c.prev = 0

/-- Moving the buckets forward on the way leaves every later count as it is. -/
theorem Counter.used_roll (hw : 0 < w) (h : t ≤ t') (hc : c.Sound) :
    (c.roll w t).used w t' = c.used w t' := by
  rcases hc with hpos | ⟨hstart, hcurrent, hprev⟩
  · have h0 := hpos.ne'
    by_cases h2 : 2 * w ≤ t - c.start
    · rw [roll_two h0 h2, used_empty, used_two h0 (by omega)]
    by_cases h1 : w ≤ t - c.start
    · rw [roll_one h0 h1 h2]
      have hnext : c.start + w ≠ 0 := by omega
      by_cases h2' : 2 * w ≤ t' - c.start
      · rw [used_two h0 h2', used_idle hnext (by simp only; omega) rfl]
      · have hstay : roll w ⟨c.start + w, 0, c.current⟩ t' = ⟨c.start + w, 0, c.current⟩ :=
          roll_within hnext hw (by simp only; omega)
        rw [used, hstay, used, roll_one h0 (by omega) h2']
    · rw [roll_within h0 hw h1]
  · obtain ⟨start, current, prev⟩ := c
    obtain rfl : start = 0 := hstart
    obtain rfl : current = 0 := hcurrent
    obtain rfl : prev = 0 := hprev
    rw [roll_unused rfl, used_empty, used_empty]

section Spending

variable {n S : ℕ} {ops : List Spend}

/-- The counter once `n` is spent at `t`. -/
def Counter.spend (w : ℤ) (c : Counter) (t : ℤ) (n : ℕ) : Counter :=
  ⟨(c.roll w t).start, (c.roll w t).current + n, (c.roll w t).prev⟩

/-- Each bucket holds no more than what was spent in its window, and all was spent before the
current window ends. -/
structure Fills (w : ℤ) (c : Counter) (ops : List Spend) : Prop where
  unused : c.start = 0 → ops = []
  before : ∀ op ∈ ops, op.1 < c.start + w
  current : c.current ≤ spentIn c.start (c.start + w) ops
  prev : c.prev ≤ spentIn (c.start - w) c.start ops

theorem Counter.roll_start (w : ℤ) (hs : 0 ≤ c.start) (ht : c.start ≤ t) (hpos : 0 < t) :
    0 < (c.roll w t).start ∧ (c.roll w t).start ≤ t := by
  unfold roll
  split_ifs
  · exact ⟨hpos, le_rfl⟩
  · exact ⟨hpos, le_rfl⟩
  · simp only; omega
  · omega

/-- The buckets moved forward still hold no more than what was spent in their windows. -/
theorem Fills.roll (hw : 0 < w) (h : Fills w c ops) (ht : c.start ≤ t) :
    (∀ op ∈ ops, op.1 < (c.roll w t).start + w) ∧ t < (c.roll w t).start + w ∧
      (c.roll w t).current ≤ spentIn (c.roll w t).start ((c.roll w t).start + w) ops ∧
      (c.roll w t).prev ≤ spentIn ((c.roll w t).start - w) (c.roll w t).start ops := by
  by_cases h0 : c.start = 0
  · obtain rfl := h.unused h0
    rw [Counter.roll_unused h0]
    exact ⟨nofun, by simp only; omega, h.current, h.prev⟩
  by_cases h2 : 2 * w ≤ t - c.start
  · rw [Counter.roll_two h0 h2]
    refine ⟨fun op hop => ?_, by simp only; omega, Nat.zero_le _, Nat.zero_le _⟩
    have := h.before op hop
    simp only
    omega
  by_cases h1 : w ≤ t - c.start
  · rw [Counter.roll_one h0 h1 h2]
    refine ⟨fun op hop => ?_, by simp only; omega, Nat.zero_le _, ?_⟩
    · have := h.before op hop
      simp only
      omega
    · simpa only [add_sub_cancel_right] using h.current
  · rw [Counter.roll_within h0 hw h1]
    exact ⟨h.before, by omega, h.current, h.prev⟩

theorem spentIn_snoc {a b : ℤ} (h : a ≤ t ∧ t < b) :
    spentIn a b (ops ++ [(t, n)]) = spentIn a b ops + n := by
  rw [spentIn_append]
  simp [spentIn, h]

theorem Fills.spend (hw : 0 < w) (h : Fills w c ops) (hs : 0 ≤ c.start) (ht : c.start ≤ t)
    (hpos : 0 < t) : Fills w (c.spend w t n) (ops ++ [(t, n)]) := by
  obtain ⟨hbefore, hlt, hcurrent, hprev⟩ := h.roll hw ht
  obtain ⟨hstart, hle⟩ := Counter.roll_start w hs ht hpos
  refine ⟨fun h0 => absurd h0 hstart.ne', fun op hop => ?_, ?_, ?_⟩
  · rcases List.mem_append.1 hop with hop | hop
    · exact hbefore op hop
    · rw [List.mem_singleton.1 hop]; exact hlt
  · exact (Nat.add_le_add_right hcurrent n).trans_eq (spentIn_snoc ⟨hle, hlt⟩).symm
  · exact hprev.trans (by rw [spentIn_append]; exact Nat.le_add_right _ _)

/-- Where no window sees more than `S`, a spend and all that counts before it come to at most
twice as much. -/
theorem Fills.used_add_le (hw : 0 < w) (h : Fills w (c.spend w t n) ops)
    (hS : ∀ a, spentIn a (a + w) ops ≤ S) : c.used w t + n ≤ 2 * S := by
  have hcurrent : (c.roll w t).current + n ≤ S := h.current.trans (hS _)
  have hprev : (c.roll w t).prev ≤ S := by
    refine h.prev.trans ?_
    have := hS ((c.spend w t n).start - w)
    rwa [sub_add_cancel] at this
  have hshare := @weighted_le w (c.roll w t).prev _ (into_bounds (t := t) hw.le (c.roll w t).start).1
  unfold Counter.used
  omega

end Spending

end Sliding
