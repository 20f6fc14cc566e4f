import DominionSilver.Proofs.Loosening
import DominionSilver.Proofs.Window
import DominionSilver.Sanity.Counter

/-! The redemption budget over time. Steady redemptions never close the limiter, waiting only frees
budget, and an emergency tighten leaves no more of it at any later time. All three are facts about
the sliding counter that the program keeps. -/

namespace DominionSilver

open Checked Sliding

def Window.counter (s : Window) : Counter := ⟨s.start, s.used.toNat, s.prev.toNat⟩

def Attempt.spend (a : Attempt) : Spend := (a.now, a.amount.toNat)

section Steady

variable {B : UInt64} {w : UInt32} {s : Window} {a : Attempt}

/-- The program accepts what the counter has room for, and stores what the counter holds then. -/
theorem accept_counter (hw : 0 < a.windowSeconds.toNat)
    (h : s.counter.used a.windowSeconds.toNat a.now + a.amount.toNat ≤ a.budget.toNat) :
    ∃ s', accept s a = some s' ∧
      s'.counter = s.counter.spend a.windowSeconds.toNat a.now a.amount.toNat := by
  have hused := @rollWindow_effectiveUsed a.now s.start s.used s.prev _ hw
  have hrolled := @rollWindow_rolled a.now s.start s.used s.prev _ hw
  have hcurrent := rolledCurrent_le a.now s.start a.windowSeconds s.used s.prev
  change _ = min (s.counter.used _ _) _ at hused
  change _ = s.counter.roll _ _ at hrolled
  have hbudget := a.budget.toNat_lt
  refine ⟨_, if_pos (by omega), ?_⟩
  unfold Counter.spend
  rw [← hrolled, Window.counter, UInt64.toNat_add, Nat.mod_eq_of_lt (by omega)]

/-- Attempts under one budget and one window, in the order of time, at most half a budget of them
in any window. -/
structure Steady (B : UInt64) (w : UInt32) (as : List Attempt) : Prop where
  limits : ∀ a ∈ as, a.budget = B ∧ a.windowSeconds = w
  clock : as.Pairwise fun a b => a.now ≤ b.now
  now : ∀ a ∈ as, 0 < a.now
  half : ∀ t, spentIn t (t + w.toNat) (as.map Attempt.spend) ≤ B.toNat / 2

theorem accepted_of_steady (hw : 0 < w.toNat) (before : List Attempt) {as : List Attempt}
    (h : Steady B w (before ++ as)) (hs : Fills w.toNat s.counter (before.map Attempt.spend))
    (h0 : 0 ≤ s.start) (hle : ∀ a ∈ as, s.start ≤ a.now) :
    accepted s as = as.map Attempt.spend := by
  induction as generalizing before s with
  | nil => rfl
  | cons a as ih =>
    have hmem : a ∈ before ++ a :: as := List.mem_append_right _ List.mem_cons_self
    have hstart := hle a List.mem_cons_self
    have hnow := h.now a hmem
    obtain ⟨rfl, rfl⟩ := h.limits a hmem
    have hfills := hs.spend (n := a.amount.toNat) (by omega) h0 hstart hnow
    have hsplit : (before ++ a :: as).map Attempt.spend =
        (before.map Attempt.spend ++ [a.spend]) ++ as.map Attempt.spend := by simp
    have hhalf : ∀ t, spentIn t (t + a.windowSeconds.toNat)
        (before.map Attempt.spend ++ [a.spend]) ≤ a.budget.toNat / 2 := by
      intro t
      have := h.half t
      rw [hsplit, spentIn_append] at this
      exact (Nat.le_add_right _ _).trans this
    have hroom : s.counter.used a.windowSeconds.toNat a.now + a.amount.toNat ≤
        2 * (a.budget.toNat / 2) := hfills.used_add_le (by omega) hhalf
    obtain ⟨s', haccept, hcounter⟩ := @accept_counter s a hw (by omega)
    have hroll := @Counter.roll_start a.now s.counter a.windowSeconds.toNat h0 hstart hnow
    have hstart' : s'.start = (s.counter.roll a.windowSeconds.toNat a.now).start :=
      congrArg Counter.start hcounter
    rw [← hstart'] at hroll
    rw [accepted, haccept, List.map_cons]
    refine congrArg (a.spend :: ·) (ih (before ++ [a]) ?_ ?_ hroll.1.le ?_)
    · rwa [List.append_assoc, List.singleton_append]
    · rw [hcounter, List.map_append]
      exact hfills
    · have hclock := (List.pairwise_append.1 h.clock).2.1
      exact fun b hb => hroll.2.trans ((List.pairwise_cons.1 hclock).1 b hb)

/-- Where at most half a budget is attempted in any window, every attempt is accepted. And two
windows after the stored start a whole budget is free, whatever the buckets hold. -/
theorem limiter_never_ratchets (hw : 1 ≤ w) :
    (∀ as, Steady B w as → accepted .bootstrap as = as.map Attempt.spend) ∧
      ∀ (s : Window) now amount, s.start ≠ 0 → amount ≤ B → s.start + 2 * w.toNat ≤ now →
        ∃ s', accept s ⟨now, amount, B, w⟩ = some s' := by
  have hw : 1 ≤ w.toNat := UInt32.le_iff_toNat_le.1 hw
  constructor
  · intro as h
    refine accepted_of_steady hw [] h ?_ le_rfl fun a ha => (h.now a ha).le
    exact ⟨fun _ => rfl, nofun, Nat.zero_le _, Nat.zero_le _⟩
  · intro s now amount h0 hamount hlate
    have hused : s.counter.used w.toNat now = 0 := by
      refine Counter.used_two h0 ?_
      simp only [Window.counter]
      omega
    obtain ⟨s', h, -⟩ := @accept_counter s ⟨now, amount, B, w⟩ hw (by
      rw [hused, Nat.zero_add]
      exact UInt64.le_iff_toNat_le.1 hamount)
    exact ⟨s', h⟩

/-- Half a budget at the end of a window, and the other half at the start of the next. -/
def steadyAttempts : List Attempt :=
  [⟨1000, 10, 100, 60⟩, ⟨1059, 40, 100, 60⟩, ⟨1119, 50, 100, 60⟩]

theorem limiter_never_ratchets_steadyAttempts :
    accepted .bootstrap steadyAttempts = [(1000, 10), (1059, 40), (1119, 50)] ∧
      ∃ s', accept ⟨-5, 100, 100⟩ ⟨115, 100, 100, 60⟩ = some s' := by
  obtain ⟨hrun, hlate⟩ := @limiter_never_ratchets 100 60 (by decide)
  refine ⟨hrun _ ⟨by decide, by decide, by decide, fun t => ?_⟩, hlate _ _ _ ?_ ?_ ?_⟩
  · have h50 : (100 : UInt64).toNat / 2 = 50 := rfl
    have h60 : (60 : UInt32).toNat = 60 := rfl
    simp only [h50, h60, steadyAttempts, Attempt.spend, spentIn, List.map_cons, List.map_nil,
      List.filter_cons, List.filter_nil, decide_eq_true_eq]
    split_ifs <;> simp <;> omega
  · decide
  · decide
  · decide

end Steady

section Waiting

variable {t₁ t₂ start : ℤ} {w : UInt32} {used prev : UInt64}

/-- Waiting never costs budget, and storing the buckets as they are moved forward on the way
changes no later count. -/
theorem waiting_never_costs {d : WindowDecision} (hw : 1 ≤ w)
    (hs : 0 < start ∨ start = 0 ∧ used = 0 ∧ prev = 0) (ht : t₁ ≤ t₂)
    (hd : d = rollWindow t₁ start w used prev) :
    (rollWindow t₂ start w used prev).effectiveUsed ≤ d.effectiveUsed ∧
      (rollWindow t₂ d.newWindowStart w d.rolledCurrent d.rolledPrev).effectiveUsed =
        (rollWindow t₂ start w used prev).effectiveUsed := by
  have hw : 0 < w.toNat := UInt32.le_iff_toNat_le.1 hw
  have hcount := fun t s u p => @rollWindow_effectiveUsed t s u p w hw
  subst hd
  constructor
  · rw [UInt64.le_iff_toNat_le, hcount, hcount]
    exact min_le_min_right _ (Counter.used_anti (by omega) ht)
  · have hsound : Counter.Sound ⟨start, used.toNat, prev.toNat⟩ := by
      rcases hs with hs | ⟨hs, rfl, rfl⟩
      · exact .inl hs
      · exact .inr ⟨hs, rfl, rfl⟩
    rw [← UInt64.toNat_inj, hcount, hcount, rollWindow_rolled hw,
      Counter.used_roll (by omega) ht hsound]

/-- Past one boundary, with the moved buckets stored on the way. -/
theorem waiting_never_costs_boundary :
    (rollWindow 1180 1000 100 60 40).effectiveUsed ≤ 30 ∧
      (rollWindow 1180 1100 100 0 60).effectiveUsed =
        (rollWindow 1180 1000 100 60 40).effectiveUsed :=
  @waiting_never_costs 1150 1180 1000 100 60 40 ⟨30, 1100, 0, 60⟩ (by decide) (by decide)
    (by decide) (by decide)

end Waiting

section Tightening

/-- The most that can be redeemed at once at a time. -/
def largestOutflow (c : ConfigAccount) (t : ℤ) : ℕ :=
  if c.redemptionsEnabled then
    c.instantRedeemBudgetUsdc.toNat - (rollWindow t c.instantWindowStart
      c.instantRedeemWindowSeconds c.instantUsedUsdc c.instantUsedPrevUsdc).effectiveUsed.toNat
  else 0

theorem effectiveUsed_lengthen {w w' : UInt32} (h : w ≤ w') (t start : ℤ) (used prev : UInt64) :
    (rollWindow t start w used prev).effectiveUsed.toNat ≤
      (rollWindow t start w' used prev).effectiveUsed.toNat := by
  have hle := UInt32.le_iff_toNat_le.1 h
  rcases Nat.eq_zero_or_pos w.toNat with h0 | hw
  · simp only [rollWindow, if_pos (show (w.toNat : ℤ) ≤ 0 by omega)]
    exact Nat.zero_le _
  · rw [rollWindow_effectiveUsed hw, rollWindow_effectiveUsed (hw.trans_le hle)]
    exact min_le_min_right _ (Counter.used_lengthen (by omega) (by omega))

theorem largestOutflow_le {c c' : ConfigAccount} (t : ℤ)
    (henabled : c'.redemptionsEnabled = true → c.redemptionsEnabled = true)
    (hbudget : c'.instantRedeemBudgetUsdc ≤ c.instantRedeemBudgetUsdc)
    (hwindow : c.instantRedeemWindowSeconds ≤ c'.instantRedeemWindowSeconds)
    (hstored : c'.counter = c.counter) : largestOutflow c' t ≤ largestOutflow c t := by
  obtain ⟨hs, hu, hp⟩ := Counter.mk.inj hstored
  rw [UInt64.toNat_inj] at hu hp
  have hused := effectiveUsed_lengthen hwindow t c.instantWindowStart c.instantUsedUsdc
    c.instantUsedPrevUsdc
  have hbudget := UInt64.le_iff_toNat_le.1 hbudget
  unfold largestOutflow
  rw [hs, hu, hp]
  split_ifs with h' h
  · omega
  · exact absurd (henabled h') h
  · exact Nat.zero_le _
  · exact le_rfl

/-- Of the limits at least one is strictly tighter in `c'`. -/
def StrictlyTighter (c c' : ConfigAccount) : Prop :=
  c'.instantRedeemBudgetUsdc < c.instantRedeemBudgetUsdc ∨
    c.instantRedeemWindowSeconds < c'.instantRedeemWindowSeconds ∨
    c.redemptionsEnabled = true ∧ c'.redemptionsEnabled = false

theorem differs_iff {α : Type} [DecidableEq α] {o : Option α} {current : α} :
    differs o current = true ↔ ∃ v, o = some v ∧ v ≠ current := by
  cases o <;> simp [differs]

theorem strictlyTighter_writeTo {a : RedeemLimitsArgs} {c : ConfigAccount}
    (ht : Tightens c (a.writeTo c)) (h : a.effectiveChange c = true) :
    StrictlyTighter c (a.writeTo c) := by
  simp only [RedeemLimitsArgs.effectiveChange, Bool.or_eq_true, differs_iff] at h
  rcases h with (⟨v, hv, hne⟩ | ⟨v, hv, hne⟩) | ⟨v, hv, hne⟩
  · have hb : (a.writeTo c).instantRedeemBudgetUsdc = v := by simp [RedeemLimitsArgs.writeTo, hv]
    exact .inl (UInt64.lt_of_le_of_ne ht.budget (hb ▸ hne))
  · have hw : (a.writeTo c).instantRedeemWindowSeconds = v := by simp [RedeemLimitsArgs.writeTo, hv]
    exact .inr (.inl (UInt32.lt_of_le_of_ne ht.window (hw ▸ hne.symm)))
  · have hr : (a.writeTo c).redemptionsEnabled = v := by simp [RedeemLimitsArgs.writeTo, hv]
    have hclose := ht.redemptions
    rw [hr] at hclose
    refine .inr (.inr ?_)
    rw [hr]
    cases v with
    | false => exact ⟨Bool.eq_true_of_not_eq_false hne.symm, rfl⟩
    | true => exact absurd (hclose rfl).symm hne

/-- An emergency tighten leaves no more to redeem at any later time, and is never without effect. -/
theorem emergency_tighten_tightens {rt : Runtime} {c : Call} {w w' : World}
    {args : RedeemLimitsArgs} (h : exec rt c w = .ok w')
    (hix : c.ix = .emergencyTightenRedeemLimits args) :
    (∀ t, largestOutflow w'.config t ≤ largestOutflow w.config t) ∧
      StrictlyTighter w.config w'.config := by
  have he := (effect_of_exec h).2
  rw [hix] at he
  cases he with
  | emergencyTightenRedeemLimits _ _ _ tighten changed =>
    have ht := tightens_writeTo tighten
    exact ⟨fun t => largestOutflow_le t ht.redemptions ht.budget ht.window rfl,
      strictlyTighter_writeTo ht changed⟩

theorem emergency_tighten_tightens_tightenCall :
    (∀ t, largestOutflow (Reference.next Reference.runtime Reference.start tightenCall).config t ≤
        largestOutflow Reference.start.config t) ∧
      StrictlyTighter Reference.start.config
        (Reference.next Reference.runtime Reference.start tightenCall).config :=
  emergency_tighten_tightens (Reference.exec_next (by decide +kernel)) rfl

end Tightening

end DominionSilver
