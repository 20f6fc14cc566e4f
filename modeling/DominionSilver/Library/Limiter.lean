import Mathlib.Tactic

/-! A token bucket. It holds at most `burst` tokens, gains `rate` of them in a unit of time, and
spends one on each request that it grants. However it is asked, it grants at most `burst + rate * T`
requests in a stretch of time `T`: what it has granted since a time and what it holds now grow
together no faster than it is filled. -/

namespace Limiter

variable {K : Type} [LinearOrder K]

theorem countP_eq_zero_of_lt {ts : List K} {t a : K} (h : ∀ u ∈ ts, u ≤ t) (ha : t < a) :
    ts.countP (a ≤ ·) = 0 := by
  rw [List.countP_eq_zero]
  intro u hu
  simpa using (h u hu).trans_lt ha

variable [Field K]

structure Bucket (K : Type) where
  tokens : K
  refilled : K

/-- What a bucket holds at a time. -/
def Bucket.level (burst rate : K) (b : Bucket K) (now : K) : K :=
  min burst (b.tokens + (now - b.refilled) * rate)

/-- The times at which a bucket that was full at `start` has granted a request, what is left in it,
and the time. -/
inductive Admits (burst rate start : K) : List K → Bucket K → K → Prop
  | full : Admits burst rate start [] ⟨burst, start⟩ start
  | wait {ts b t t'} (h : Admits burst rate start ts b t) (later : t ≤ t') :
      Admits burst rate start ts b t'
  | refuse {ts b t} (h : Admits burst rate start ts b t) :
      Admits burst rate start ts ⟨b.level burst rate t, t⟩ t
  | grant {ts b t} (h : Admits burst rate start ts b t) (enough : 1 ≤ b.level burst rate t) :
      Admits burst rate start (ts ++ [t]) ⟨b.level burst rate t - 1, t⟩ t

variable {burst rate start t t' a c x : K} {ts : List K} {b : Bucket K}

theorem Admits.le_now (h : Admits burst rate start ts b t) : ∀ u ∈ ts, u ≤ t := by
  induction h with
  | full => simp
  | wait _ later ih => exact fun u hu => (ih u hu).trans later
  | refuse _ ih => exact ih
  | grant _ _ ih => simpa [or_imp, forall_and] using ih

section Level

theorem level_le_burst : b.level burst rate t ≤ burst := min_le_left _ _

theorem level_now (h : x ≤ burst) : Bucket.level burst rate ⟨x, t⟩ t = x := by
  simp [Bucket.level, h]

variable [IsStrictOrderedRing K]

theorem level_mono (hrate : 0 ≤ rate) (h : t ≤ t') :
    b.level burst rate t ≤ b.level burst rate t' := by
  unfold Bucket.level
  gcongr

theorem level_growth (hrate : 0 ≤ rate) (h : t ≤ t') :
    b.level burst rate t' ≤ b.level burst rate t + rate * (t' - t) := by
  have hfilled : 0 ≤ rate * (t' - t) := mul_nonneg hrate (sub_nonneg.2 h)
  unfold Bucket.level
  rw [min_add]
  refine min_le_min (le_add_of_nonneg_right hfilled) (le_of_eq ?_)
  ring

end Level

section Grants

variable [IsStrictOrderedRing K]

theorem Admits.level_nonneg (hburst : 0 ≤ burst) (hrate : 0 ≤ rate)
    (h : Admits burst rate start ts b t) : 0 ≤ b.level burst rate t := by
  induction h with
  | full => rwa [level_now le_rfl]
  | wait _ later ih => exact ih.trans (level_mono hrate later)
  | refuse _ ih => rwa [level_now level_le_burst]
  | grant _ enough =>
    rw [level_now ((sub_le_self _ zero_le_one).trans level_le_burst)]
    exact sub_nonneg.2 enough

theorem Admits.since (hrate : 0 ≤ rate) (h : Admits burst rate start ts b t) (ha : a ≤ t) :
    (ts.countP (a ≤ ·) : K) + b.level burst rate t ≤ burst + rate * (t - a) := by
  induction h with
  | full =>
    have hfilled : 0 ≤ rate * (start - a) := mul_nonneg hrate (sub_nonneg.2 ha)
    simpa [level_now] using hfilled
  | @wait ts b t t' h later ih =>
    rcases le_or_gt a t with hold | hnew
    · have hgrowth : b.level burst rate t' ≤ b.level burst rate t + rate * (t' - t) :=
        level_growth hrate later
      have hsum : rate * (t - a) + rate * (t' - t) = rate * (t' - a) := by ring
      linarith [ih hold]
    · have hfilled : 0 ≤ rate * (t' - a) := mul_nonneg hrate (sub_nonneg.2 ha)
      rw [countP_eq_zero_of_lt h.le_now hnew, Nat.cast_zero, zero_add]
      exact level_le_burst.trans (le_add_of_nonneg_right hfilled)
  | refuse _ ih => rw [level_now level_le_burst]; exact ih ha
  | @grant ts b t _ _ ih =>
    rw [level_now ((sub_le_self _ zero_le_one).trans level_le_burst), List.countP_append,
      List.countP_singleton, if_pos (by simpa using ha), Nat.cast_add, Nat.cast_one]
    linarith [ih ha]

/-- No stretch of time sees more grants than a full bucket and its filling. -/
theorem Admits.window (hburst : 0 ≤ burst) (hrate : 0 ≤ rate)
    (h : Admits burst rate start ts b t) (hac : a ≤ c) :
    (ts.countP (fun u => a ≤ u ∧ u ≤ c) : K) ≤ burst + rate * (c - a) := by
  induction h with
  | full =>
    have hfilled : 0 ≤ rate * (c - a) := mul_nonneg hrate (sub_nonneg.2 hac)
    simpa using add_nonneg hburst hfilled
  | wait _ _ ih => exact ih
  | refuse _ ih => exact ih
  | @grant ts b t h enough ih =>
    by_cases hin : a ≤ t ∧ t ≤ c
    · -- everything so far is before `c`, so the window is all that was granted since `a`
      have hall : (ts ++ [t]).countP (fun u => a ≤ u ∧ u ≤ c) = (ts ++ [t]).countP (a ≤ ·) := by
        refine List.countP_congr fun u hu => ?_
        have hle : u ≤ c := ((h.grant enough).le_now u hu).trans hin.2
        simp [hle]
      have hsince := (h.grant enough).since hrate hin.1
      have hleft := (h.grant enough).level_nonneg hburst hrate
      have hlater : rate * (t - a) ≤ rate * (c - a) :=
        mul_le_mul_of_nonneg_left (sub_le_sub_right hin.2 a) hrate
      rw [hall]
      linarith
    · rw [List.countP_append, List.countP_singleton, if_neg (by simpa using hin), add_zero]
      exact ih

end Grants

end Limiter
