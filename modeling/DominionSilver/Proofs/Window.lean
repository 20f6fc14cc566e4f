import DominionSilver.Library.Buckets
import DominionSilver.Sanity.Quotes

/-! The redemption window bounds the outflow. Every accepted amount goes to the
bucket of the stored start. A new bucket starts at least a window after the one
before it, and none is filled beyond the budget, whatever the weight of the
previous bucket. -/

namespace DominionSilver

open Checked

/-- What the config stores of the window. -/
structure Window where
  start : ℤ
  used : UInt64
  prev : UInt64
deriving DecidableEq

def Window.bootstrap : Window := ⟨0, 0, 0⟩

/-- An attempt to redeem `amount` under the limits in force. -/
structure Attempt where
  now : ℤ
  amount : UInt64
  budget : UInt64
  windowSeconds : UInt32
deriving DecidableEq

/-- The window that an accepted attempt stores; `none` where the attempt is refused. -/
def accept (s : Window) (a : Attempt) : Option Window :=
  let win := rollWindow a.now s.start a.windowSeconds s.used s.prev
  if win.effectiveUsed.toNat + a.amount.toNat ≤ a.budget.toNat then
    some ⟨win.newWindowStart, win.rolledCurrent + a.amount, win.rolledPrev⟩
  else none

/-- The accepted attempts, with their times. -/
def accepted : Window → List Attempt → List Spend
  | _, [] => []
  | s, a :: as =>
    match accept s a with
    | some s' => (a.now, a.amount.toNat) :: accepted s' as
    | none => accepted s as

section Roll

variable {now start : ℤ} {windowSeconds : UInt32} {used prev : UInt64}

theorem rollWindow_of_pos (hw : 1 ≤ windowSeconds.toNat) :
    ((rollWindow now start windowSeconds used prev).newWindowStart,
        (rollWindow now start windowSeconds used prev).rolledCurrent,
        (rollWindow now start windowSeconds used prev).rolledPrev) =
      rollBuckets now start windowSeconds.toNat used prev := by
  rw [rollWindow, if_neg (by omega)]

theorem rollBuckets_cases {w : ℤ} (hs : 0 < start) (hle : start ≤ now) (hnow : I64 now) :
    (now - start < w ∧ rollBuckets now start w used prev = (start, used, prev)) ∨
      (w ≤ now - start ∧ now - start < 2 * w ∧
        rollBuckets now start w used prev = (start + w, 0, used)) ∨
      (2 * w ≤ now - start ∧ rollBuckets now start w used prev = (now, 0, 0)) := by
  have helapsed : max (saturatingI64 (now - start)) 0 = now - start := by
    obtain ⟨hl, hu⟩ := hnow
    rw [saturatingI64_of_I64 ⟨by omega, by omega⟩]
    omega
  unfold rollBuckets
  simp only [helapsed, if_neg hs.ne']
  split_ifs with h2 h1
  · exact .inr (.inr ⟨h2, rfl⟩)
  · exact .inr (.inl ⟨h1, by omega, rfl⟩)
  · exact .inl ⟨by omega, rfl⟩

end Roll

theorem accept_ok {s s' : Window} {a : Attempt} (hw : 1 ≤ a.windowSeconds.toNat)
    (h : accept s a = some s') :
    ∃ current, rollBuckets a.now s.start a.windowSeconds.toNat s.used s.prev =
        (s'.start, current, s'.prev) ∧
      s'.used.toNat = current.toNat + a.amount.toNat ∧ s'.used.toNat ≤ a.budget.toNat := by
  simp only [accept, Option.ite_none_right_eq_some, Option.some.injEq] at h
  obtain ⟨hb, rfl⟩ := h
  have hc := rolledCurrent_le a.now s.start a.windowSeconds s.used s.prev
  have hlt := a.budget.toNat_lt
  have hsum : (rollWindow a.now s.start a.windowSeconds s.used s.prev).rolledCurrent.toNat +
      a.amount.toNat < 2 ^ 64 := by omega
  have hused := UInt64.toNat_add
    (rollWindow a.now s.start a.windowSeconds s.used s.prev).rolledCurrent a.amount
  rw [Nat.mod_eq_of_lt hsum] at hused
  exact ⟨_, (rollWindow_of_pos hw).symm, hused, by simp only [hused]; omega⟩

/-- What the stored window says of the accepted attempts: none yet, or its bucket is the newest, and
nothing in it is as much as a window past its start. -/
inductive Stored (w : ℤ) (B : ℕ) (s : Window) (last : ℤ) (W : ℕ) : List Bucket → Prop
  | bootstrap (fresh : s = .bootstrap) : Stored w B s last W []
  | bucket {b bs} (spaced : Spaced w B (b :: bs)) (start : b.start = s.start)
      (positive : 0 < s.start) (past : s.start ≤ last) (total : b.total = s.used.toNat)
      (recent : ∀ op ∈ b.ops, op.1 < s.start + W) : Stored w B s last W (b :: bs)

theorem Stored.spaced {w last : ℤ} {B W : ℕ} {s : Window} {bs : List Bucket}
    (h : Stored w B s last W bs) : Spaced w B bs := by
  cases h with
  | bootstrap => exact .nil
  | bucket spaced => exact spaced

theorem Stored.mono {w last last' : ℤ} {B W W' : ℕ} {s : Window} {bs : List Bucket}
    (h : Stored w B s last W bs) (hlast : last ≤ last') (hW : W ≤ W') :
    Stored w B s last' W' bs := by
  cases h with
  | bootstrap fresh => exact .bootstrap fresh
  | bucket spaced start positive past total recent =>
    refine .bucket spaced start positive (past.trans hlast) total ?_
    intro op hop
    have := recent op hop
    omega

theorem Stored.fresh {w : ℤ} {B : ℕ} {s : Window} {bs : List Bucket} {a : Attempt}
    (h : Spaced w B bs) (hused : s.used.toNat = a.amount.toNat) (hB : s.used.toNat ≤ B)
    (hpos : 0 < s.start) (hle : s.start ≤ a.now) (hnow : a.now < s.start + a.windowSeconds.toNat)
    (hbs : (∀ c ∈ bs, c.start + w ≤ s.start) ∧ ∀ op ∈ spends bs, op.1 < s.start) :
    Stored w B s a.now a.windowSeconds.toNat (⟨s.start, [(a.now, a.amount.toNat)]⟩ :: bs) := by
  refine .bucket (h.fresh (hused ▸ hB) hle hbs.1 hbs.2) rfl hpos hle ?_ ?_
  · simp [Bucket.total, hused]
  · intro op hop
    rw [List.mem_singleton.1 hop]; exact hnow

theorem Stored.accept {w last : ℤ} {B W : ℕ} {s s' : Window} {bs : List Bucket} {a : Attempt}
    (h : Stored w B s last W bs) (hw : 1 ≤ w) (hnow : I64 a.now) (hpos : 0 < a.now)
    (hlast : last ≤ a.now) (hW : W ≤ a.windowSeconds.toNat) (hwa : w ≤ a.windowSeconds.toNat)
    (hB : a.budget.toNat ≤ B) (ha : accept s a = some s') :
    ∃ bs', Stored w B s' a.now a.windowSeconds.toNat bs' ∧
      spends bs' = spends bs ++ [(a.now, a.amount.toNat)] := by
  obtain ⟨current, hroll, hused, hbudget⟩ := accept_ok (by omega) ha
  have hB' := hbudget.trans hB
  cases h with
  | bootstrap fresh =>
    subst fresh
    obtain ⟨hs, rfl, -⟩ : a.now = s'.start ∧ 0 = current ∧ 0 = s'.prev := by
      simpa [rollBuckets, Window.bootstrap] using hroll
    have hz : s'.used.toNat = a.amount.toNat := by simpa using hused
    exact ⟨_, .fresh .nil hz hB' (hs ▸ hpos) hs.ge (by omega) ⟨nofun, nofun⟩, rfl⟩
  | @bucket b bs spaced start positive past total recent =>
    have hrecent : ∀ op ∈ b.ops, op.1 < s.start + a.windowSeconds.toNat := fun op hop => by
      have := recent op hop; omega
    rcases @rollBuckets_cases a.now s.start s.used s.prev a.windowSeconds.toNat positive
      (past.trans hlast) hnow with ⟨hlt, he⟩ | ⟨hge, hlt, he⟩ | ⟨hge, he⟩
    · -- the stored bucket is still open
      obtain ⟨hs, rfl, -⟩ : s.start = s'.start ∧ s.used = current ∧ s.prev = s'.prev := by
        simpa using he.symm.trans hroll
      have hjoin : Spaced w B (⟨b.start, b.ops ++ [(a.now, a.amount.toNat)]⟩ :: bs) :=
        spaced.join (by omega) (by omega)
      refine ⟨_, .bucket hjoin (start.trans hs) (hs ▸ positive) (by omega) ?_ ?_,
        (List.append_assoc _ _ _).symm⟩
      · rw [Bucket.total_snoc]; simp only; omega
      · intro op hop
        rcases List.mem_append.1 hop with hop | hop
        · have := hrecent op hop; omega
        · rw [List.mem_singleton.1 hop]; simp only; omega
    · -- one window has passed: the bucket becomes the previous one
      obtain ⟨hs, rfl, -⟩ : s.start + a.windowSeconds.toNat = s'.start ∧ 0 = current ∧
          s.used = s'.prev := by simpa using he.symm.trans hroll
      have hz : s'.used.toNat = a.amount.toNat := by simpa using hused
      exact ⟨_, .fresh spaced hz hB' (by omega) (by omega) (by omega)
        (spaced.newest (by omega) (by omega) fun op hop => by have := hrecent op hop; omega), rfl⟩
    · -- two have passed: the window starts anew
      obtain ⟨hs, rfl, -⟩ : a.now = s'.start ∧ 0 = current ∧ 0 = s'.prev := by
        simpa using he.symm.trans hroll
      have hz : s'.used.toNat = a.amount.toNat := by simpa using hused
      exact ⟨_, .fresh spaced hz hB' (by omega) (by omega) (by omega)
        (spaced.newest (by omega) (by omega) fun op hop => by have := hrecent op hop; omega), rfl⟩

/-- Attempts in the order of time, under budgets of at most `B` and windows of at least `w` that
never shorten. -/
structure Tightening (B : UInt64) (w : UInt32) (as : List Attempt) : Prop where
  clock : as.Pairwise fun a b => a.now ≤ b.now
  windows : as.Pairwise fun a b => a.windowSeconds ≤ b.windowSeconds
  now : ∀ a ∈ as, 0 < a.now ∧ I64 a.now
  budget : ∀ a ∈ as, a.budget ≤ B
  window : ∀ a ∈ as, w ≤ a.windowSeconds

theorem Tightening.tail {B : UInt64} {w : UInt32} {a : Attempt} {as : List Attempt}
    (h : Tightening B w (a :: as)) : Tightening B w as where
  clock := (List.pairwise_cons.1 h.clock).2
  windows := (List.pairwise_cons.1 h.windows).2
  now b hb := h.now b (List.mem_cons_of_mem a hb)
  budget b hb := h.budget b (List.mem_cons_of_mem a hb)
  window b hb := h.window b (List.mem_cons_of_mem a hb)

theorem spaced_accepted {B : UInt64} {w : UInt32} (hw : 1 ≤ w.toNat) {as : List Attempt}
    (h : Tightening B w as) {s : Window} {bs : List Bucket} {last : ℤ} {W : ℕ}
    (hs : Stored w.toNat B.toNat s last W bs) (hlast : ∀ a ∈ as, last ≤ a.now)
    (hW : ∀ a ∈ as, W ≤ a.windowSeconds.toNat) :
    ∃ bs', Spaced w.toNat B.toNat bs' ∧ spends bs' = spends bs ++ accepted s as := by
  induction as generalizing s bs last W with
  | nil => exact ⟨bs, hs.spaced, (List.append_nil _).symm⟩
  | cons a as ih =>
    have hclock := (List.pairwise_cons.1 h.clock).1
    have hwindows := fun b hb => UInt32.le_iff_toNat_le.1 ((List.pairwise_cons.1 h.windows).1 b hb)
    have hmem := List.mem_cons_self (a := a) (l := as)
    unfold accepted
    cases ha : accept s a with
    | none =>
      exact ih h.tail (hs.mono (hlast a hmem) (hW a hmem)) hclock hwindows
    | some s' =>
      obtain ⟨hpos, hnow⟩ := h.now a hmem
      have hwa := UInt32.le_iff_toNat_le.1 (h.window a hmem)
      obtain ⟨bs₁, hs₁, hsp⟩ := hs.accept (by omega) hnow hpos (hlast a hmem) (hW a hmem)
        (by omega) (UInt64.le_iff_toNat_le.1 (h.budget a hmem)) ha
      obtain ⟨bs', hspaced, he⟩ := ih h.tail hs₁ hclock hwindows
      exact ⟨bs', hspaced, by rw [he, hsp, List.append_assoc]; rfl⟩

/-- A redemption that the handler accepts is an accepted attempt, and the window it stores is the
accepted one. -/
theorem accept_of_quoteRedeem {c : ConfigAccount} {premiumBps : UInt16} {price : ℕ}
    {treasuryBalance : UInt64} {now : ℤ} {amountSilv minUsdcOut : UInt64} {q : RedeemQuote}
    (h : quoteRedeem c premiumBps price treasuryBalance now amountSilv minUsdcOut = .ok q) :
    accept ⟨c.instantWindowStart, c.instantUsedUsdc, c.instantUsedPrevUsdc⟩
      ⟨now, q.totalOut, c.instantRedeemBudgetUsdc, c.instantRedeemWindowSeconds⟩ =
        some ⟨q.windowStart, q.usedUsdc, q.usedPrevUsdc⟩ := by
  obtain ⟨hbudget, hstart, hprev, hused⟩ := (quoteRedeem_ok h).budget _ rfl
  have hsum := q.usedUsdc.toNat_lt
  rw [hused] at hsum
  have hadd : q.usedUsdc = (rollWindow now c.instantWindowStart c.instantRedeemWindowSeconds
      c.instantUsedUsdc c.instantUsedPrevUsdc).rolledCurrent + q.totalOut := by
    rw [← UInt64.toNat_inj, hused, UInt64.toNat_add, Nat.mod_eq_of_lt hsum]
  simp only [accept, if_pos hbudget, hstart, hprev, hadd]

/-- In `n` windows no more than `n + 1` budgets are paid out, however the attempts are spaced and
sized, and even while the limits are tightened in between. -/
theorem redemption_outflow {B : UInt64} {w : UInt32} (hw : 1 ≤ w) {as : List Attempt}
    (h : Tightening B w as) (n : ℕ) (t : ℤ) :
    spentIn t (t + n * w.toNat) (accepted .bootstrap as) ≤ (n + 1) * B.toNat := by
  have hw : 1 ≤ w.toNat := UInt32.le_iff_toNat_le.1 hw
  obtain ⟨bs, hspaced, he⟩ := spaced_accepted hw h (.bootstrap rfl) (fun a ha => (h.now a ha).1.le)
    (fun a _ => Nat.zero_le a.windowSeconds.toNat)
  rw [spends, List.nil_append] at he
  rw [← he]
  exact spentIn_le (by omega) hspaced n t

/-- A budget at once, nearly another one when the first has lost its weight, and two refusals. -/
def lateAttempts : List Attempt :=
  [⟨1000, 60, 60, 100⟩, ⟨1099, 1, 60, 100⟩, ⟨1199, 59, 60, 100⟩, ⟨1200, 2, 60, 100⟩]

theorem redemption_outflow_lateAttempts :
    spentIn 1100 1200 (accepted .bootstrap lateAttempts) ≤ 2 * 60 :=
  redemption_outflow (B := 60) (w := 100) (by decide)
    ⟨by decide, by decide, by decide, by decide, by decide⟩ 1 1100

example : accepted .bootstrap lateAttempts = [(1000, 60), (1199, 59)] := by decide

end DominionSilver
