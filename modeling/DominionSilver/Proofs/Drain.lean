import DominionSilver.Proofs.Budget
import DominionSilver.Proofs.Money
import DominionSilver.Proofs.Removal

/-! What a day can cost the treasury. Whoever holds whichever keys, a change that
is not due yet stays undue for the day, so nobody withdraws and nobody loosens
the redemption limits, and all that leaves the treasury leaves through the
window of redemptions. The window bounds it from any state on, as what the
buckets hold already only lowers what they admit. -/

namespace DominionSilver

open Checked Tokens Sliding

section Clock

variable {now₀ : ℤ} {es : List Entry} {w w' : World}

/-- The latest clock that the deployment or a call has read. -/
def lastClock (now₀ : ℤ) (es : List Entry) : ℤ := (es.filterMap clockOf).getLastD now₀

theorem lastClock_call (c : Call) : lastClock now₀ (es ++ [⟨w, .call c, w'⟩]) = c.now := by
  simp [lastClock, clockOf, List.getLastD_eq_getLast?]

theorem lastClock_external : lastClock now₀ (es ++ [⟨w, .external, w'⟩]) = lastClock now₀ es := by
  simp [lastClock, clockOf]

theorem clock_mem_le {ts : List ℤ} {t : ℤ} (h : (now₀ :: ts ++ [t]).Pairwise (· ≤ ·)) :
    ts.getLastD now₀ ≤ t := by
  refine (List.pairwise_append.1 h).2.2 _ ?_ t (List.mem_singleton_self t)
  rcases List.eq_nil_or_concat ts with rfl | ⟨us, u, rfl⟩
  · exact List.mem_cons_self
  · simp

theorem ClockMonotone.snoc {r : Entry} (h : ClockMonotone now₀ (es ++ [r])) :
    ClockMonotone now₀ es ∧ lastClock now₀ es ≤ lastClock now₀ (es ++ [r]) := by
  obtain ⟨pre, event, post⟩ := r
  unfold ClockMonotone at h ⊢
  rw [List.filterMap_append, ← List.cons_append] at h
  refine ⟨(List.pairwise_append.1 h).1, ?_⟩
  cases event with
  | call c => rw [lastClock_call]; exact clock_mem_le h
  | external => rw [lastClock_external]

theorem ClockMonotone.first_le (h : ClockMonotone now₀ es) : now₀ ≤ lastClock now₀ es := by
  unfold lastClock
  rcases List.eq_nil_or_concat (es.filterMap clockOf) with hnil | ⟨ts, t, hts⟩
  · rw [hnil, List.getLastD_nil]
  · unfold ClockMonotone at h
    rw [hts] at h ⊢
    rw [List.concat_eq_append] at h ⊢
    rw [List.getLastD_concat]
    exact (List.pairwise_cons.1 h).1 t (by simp)

end Clock

section Undue

variable {rt : Runtime} {w w' : World} {t : ℤ} {k : TimelockAction}

/-- The change that is armed for `k`, if any, is not due before `t`. -/
def Undue (t : ℤ) (k : TimelockAction) (w : World) : Prop :=
  ∀ n tl, w.config.pendingNonce k = some n → w.timelocks.lookup n = some tl →
    t ≤ tl.executableAt

/-- What is proposed less than a day before `t` is not due before `t`, and nothing else is armed. -/
theorem Undue.effect {now : ℤ} {signer : Pubkey} {ix : Instruction} (hb : Bounded w.config)
    (h : Undue t k w) (hnow : t ≤ now + 86400) (he : Effect rt now signer w ix w') :
    Undue t k w' := by
  by_cases hp : ∃ change, ix = .propose change
  · obtain ⟨change, rfl⟩ := hp
    cases he with
    | @propose _ data executableAt _ _ _ queued =>
      have hlong := UInt32.le_iff_toNat_le.1 hb.adminTimelockSeconds.1
      have hday : (86400 : UInt32).toNat = 86400 := rfl
      have hdue := queued.executableAt
      intro n tl hn hl
      rcases Accounts.lookup_insert_cases hl with ⟨rfl, rfl⟩ | ⟨hne, hl⟩
      · change t ≤ executableAt
        omega
      · refine h n tl ?_ hl
        change Function.update w.config.pendingNonce change.kind
          (some w.config.nextTimelockNonce) k = some n at hn
        rw [Function.update_apply] at hn
        split_ifs at hn
        · exact absurd (Option.some.inj hn).symm hne
        · exact hn
  · obtain ⟨hs, ht⟩ := queue_shrinks he fun change hix => hp ⟨change, hix⟩
    exact fun n tl hn hl => h n tl (hs k n hn) (ht n tl hl)

/-- All calls read clocks from `t₀` on and before `t`. -/
def During (t₀ t : ℤ) (es : List Entry) : Prop :=
  ∀ r ∈ es, ∀ c, r.event = .call c → t₀ ≤ c.now ∧ c.now < t

/-- A change that is not due for a day is not due at any time of the day, whatever is done. -/
theorem undue_of_run {t₀ : ℤ} {es : List Entry} (hb : Bounded w.config)
    (h : Undue (t₀ + 86400) k w) (run : Run rt w es w') (hday : During t₀ (t₀ + 86400) es) :
    Bounded w'.config ∧ Undue (t₀ + 86400) k w' := by
  refine run.history (I := fun es w' => During t₀ (t₀ + 86400) es →
    Bounded w'.config ∧ Undue (t₀ + 86400) k w') (fun _ => ⟨hb, h⟩) ?_ hday
  intro rs v e v' ih hs hday
  obtain ⟨hb, h⟩ := ih fun r hr => hday r (List.mem_append_left _ hr)
  rcases step_cases hs with ⟨c, rfl, -, he⟩ | ⟨rfl, he⟩
  · have hnow := (hday _ List.mem_concat_self c rfl).1
    exact ⟨hb.effect he, h.effect hb (by omega) he⟩
  · refine ⟨he.config ▸ hb, ?_⟩
    unfold Undue
    rw [he.config, he.timelocks]
    exact h

theorem not_executes_of_run {t₀ : ℤ} {es : List Entry} (hb : Bounded w.config)
    (h : Undue (t₀ + 86400) k w) (run : Run rt w es w') (hday : During t₀ (t₀ + 86400) es) :
    ∀ r ∈ es, ∀ n, ¬ Executes k n r := by
  rintro ⟨pre, event, post⟩ hr n ⟨c, rent, ata, rfl, hix⟩
  obtain ⟨before, after, rfl⟩ := List.append_of_mem hr
  obtain ⟨hrun, hs, -⟩ := run.split
  obtain ⟨-, hundue⟩ := undue_of_run hb h hrun fun x hx => hday x (List.mem_append_left _ hx)
  have hnow := (hday _ hr c rfl).2
  have he : Effect rt c.now c.signer pre _ post := effect_of_call hs hix
  cases he with
  | execute timelock =>
    have hdue := timelock.due
    have hlater := hundue n _ timelock.armed timelock.found
    omega

end Undue

section Window

/-- The window that the config stores. -/
def ConfigAccount.redeemWindow (c : ConfigAccount) : Window :=
  ⟨c.instantWindowStart, c.instantUsedUsdc, c.instantUsedPrevUsdc⟩

theorem accept_mono {σ s s' : Window} {a : Attempt} (hw : 0 < a.windowSeconds.toNat)
    (hle : σ.counter.Le s.counter) (h : accept s a = some s') :
    ∃ σ', accept σ a = some σ' ∧ σ'.counter.Le s'.counter := by
  have hbudget := a.budget.toNat_lt
  have hcurrent := rolledCurrent_le a.now s.start a.windowSeconds s.used s.prev
  have hcurrent' := rolledCurrent_le a.now σ.start a.windowSeconds σ.used σ.prev
  have hused := @rollWindow_effectiveUsed a.now s.start s.used s.prev _ hw
  have hused' := @rollWindow_effectiveUsed a.now σ.start σ.used σ.prev _ hw
  have hcount : σ.counter.used a.windowSeconds.toNat a.now ≤
      s.counter.used a.windowSeconds.toNat a.now := hle.used _ _
  have hroll := hle.roll a.windowSeconds.toNat a.now
  unfold Window.counter at hcount hroll
  rw [← rollWindow_rolled hw, ← rollWindow_rolled hw] at hroll
  obtain ⟨hstart, hrolled, hprev⟩ := hroll
  simp only [accept, Option.ite_none_right_eq_some, Option.some.injEq] at h ⊢
  obtain ⟨hb, rfl⟩ := h
  refine ⟨_, ⟨by omega, rfl⟩, hstart, ?_, hprev⟩
  dsimp only at hrolled
  simp only [Window.counter, UInt64.toNat_add]
  omega

/-- The window has not been used, or it starts no later than `t`. -/
def Window.Started (t : ℤ) (s : Window) : Prop := s = .bootstrap ∨ 0 < s.start ∧ s.start ≤ t

theorem Window.Started.mono {s : Window} {t t' : ℤ} (h : s.Started t) (ht : t ≤ t') :
    s.Started t' :=
  h.imp_right fun ⟨hpos, hle⟩ => ⟨hpos, hle.trans ht⟩

theorem Window.Started.accept {s s' : Window} {t : ℤ} {a : Attempt} (h : s.Started t)
    (hw : 0 < a.windowSeconds.toNat) (ht : t ≤ a.now) (hpos : 0 < a.now)
    (ha : DominionSilver.accept s a = some s') : s'.Started a.now := by
  have hs : 0 ≤ s.counter.start ∧ s.counter.start ≤ a.now := by
    rcases h with rfl | ⟨hpos, hle⟩
    · exact ⟨le_rfl, hpos.le⟩
    · exact ⟨hpos.le, hle.trans ht⟩
  have hstart := Counter.roll_start a.windowSeconds.toNat hs.1 hs.2 hpos
  simp only [DominionSilver.accept, Option.ite_none_right_eq_some, Option.some.injEq] at ha
  obtain ⟨-, rfl⟩ := ha
  unfold Window.counter at hstart
  rw [← rollWindow_rolled hw] at hstart
  exact .inr hstart

/-- The same window with nothing in it. -/
def Window.emptied (s : Window) : Window := ⟨s.start, 0, 0⟩

theorem Window.emptied_le (s : Window) : s.emptied.counter.Le s.counter :=
  ⟨rfl, Nat.zero_le _, Nat.zero_le _⟩

theorem Window.Started.stored {s : Window} {t : ℤ} (h : s.Started t) (w : ℤ) (B W : ℕ) :
    ∃ bs, Stored w B s.emptied t W bs ∧ spends bs = [] := by
  rcases h with rfl | ⟨hpos, hle⟩
  · exact ⟨[], .bootstrap rfl, rfl⟩
  · refine ⟨[⟨s.start, []⟩], .bucket ?_ rfl hpos hle rfl nofun, rfl⟩
    exact .cons (Nat.zero_le _) nofun nofun nofun .nil

end Window

section Outflow

variable {rt : Runtime} {w w' : World} {e : Event}

theorem redeemWindow_of_applied {ata : Pubkey} {w₁ : World} {change : Change}
    (h : Applied rt ata w change w₁) : w₁.config.redeemWindow = w.config.redeemWindow := by
  cases h <;> rfl

/-- The attempt to redeem `amount` that a call makes. -/
def attemptOf (c : Call) (w : World) (amount : UInt64) : Attempt :=
  ⟨c.now, amount, w.config.instantRedeemBudgetUsdc, w.config.instantRedeemWindowSeconds⟩

/-- A step leaves the window as it is, or is a redemption that the window accepts and that takes
from the treasury just what it accepts. -/
theorem redeemWindow_step (hv : Vaults rt w) (h : Step rt w e w') :
    (w'.config.redeemWindow = w.config.redeemWindow ∧
      (w'.treasuryBalance < w.treasuryBalance → ∃ n, Executes .withdrawUsdc n ⟨w, e, w'⟩)) ∨
    ∃ c amount, e = .call c ∧
      accept w.config.redeemWindow (attemptOf c w amount) = some w'.config.redeemWindow ∧
      w'.treasuryBalance + amount.toNat = w.treasuryBalance := by
  have hfall := redeem_or_withdrawal_of_treasury_lt hv h
  rcases step_cases h with ⟨⟨now, hnow, signer, ix⟩, rfl, hs, he⟩ | ⟨rfl, he⟩
  · by_cases hix : ∃ amountSilv minUsdcOut accounts, ix = .redeemSilv amountSilv minUsdcOut accounts
    · obtain ⟨amountSilv, minUsdcOut, accounts, rfl⟩ := hix
      cases he with
      | @redeemSilv _ _ _ _ q _ _ _ _ _ redeemed =>
        obtain ⟨_, _, -, -, hquote⟩ := redeemed.quote
        exact .inr ⟨_, q.totalOut, rfl, accept_of_quoteRedeem hquote,
          (redeemed.settled hv hs rfl rfl).debited⟩
    · refine .inl ⟨?_, fun hlt => ?_⟩
      · cases he with
        | redeemSilv => exact absurd ⟨_, _, _, rfl⟩ hix
        | execute _ _ _ applied =>
          have hsame := redeemWindow_of_applied applied
          exact hsame
        | _ => rfl
      · rcases hfall hlt with ⟨c, amountSilv, minUsdcOut, accounts, hc, hr⟩ | hout
        · obtain rfl := Event.call.inj hc
          exact absurd ⟨_, _, _, hr⟩ hix
        · obtain ⟨c, n, rent, ata, hc, hx⟩ := hout
          exact ⟨n, c, rent, ata, hc, hx⟩
  · refine .inl ⟨by rw [he.config], fun hlt => ?_⟩
    rcases hfall hlt with ⟨c, _, _, _, hc, -⟩ | ⟨c, n, rent, ata, hc, hix⟩
    · cases hc
    · cases hc

theorem limits_of_effect {now : ℤ} {signer : Pubkey} {ix : Instruction}
    (h : Effect rt now signer w ix w') (hl : ∀ n r a, ix ≠ .execute .setRedeemLimits n r a) :
    w'.config.instantRedeemBudgetUsdc ≤ w.config.instantRedeemBudgetUsdc ∧
      w.config.instantRedeemWindowSeconds ≤ w'.config.instantRedeemWindowSeconds := by
  by_cases hp : ∃ n r a, ix = .execute .setPublicMint n r a
  · obtain ⟨n, r, a, rfl⟩ := hp
    cases h with
    | execute _ _ kind applied =>
      cases applied with
      | publicMint => exact ⟨UInt64.le_refl _, UInt32.le_refl _⟩
      | _ => cases kind
  · have ht := tightens_of_effect h hl fun n r a hix => hp ⟨n, r, a, hix⟩
    exact ⟨ht.budget, ht.window⟩

/-- What has left the treasury, whatever has come in. -/
def drained (es : List Entry) : ℕ :=
  (es.map fun r => r.pre.treasuryBalance - r.post.treasuryBalance).sum

theorem drained_snoc (es : List Entry) (r : Entry) :
    drained (es ++ [r]) = drained es + (r.pre.treasuryBalance - r.post.treasuryBalance) := by
  simp [drained]

theorem started_of_run {now₀ : ℤ} {w₀ : World} {es : List Entry} (h₀ : Initialized rt now₀ w₀)
    (hpos : 0 < now₀) (run : Run rt w₀ es w) (clock : ClockMonotone now₀ es) :
    w.config.redeemWindow.Started (lastClock now₀ es) := by
  refine (run.history (I := fun es w => Vaults rt w ∧ Bounded w.config ∧ (ClockMonotone now₀ es →
    w.config.redeemWindow.Started (lastClock now₀ es))) ?_ ?_).2.2 clock
  · refine ⟨vaults_initial h₀, bounded_initial h₀, fun _ => .inl ?_⟩
    obtain ⟨args, g, t, m, d⟩ := deployed_of_initialized h₀
    obtain ⟨usdc, -, rfl⟩ := d.state
    rfl
  · intro rs v e v' ⟨hv, hb, ih⟩ hs
    refine ⟨hv.step hs, hb.step hs, fun clock => ?_⟩
    obtain ⟨hbefore, hle⟩ := clock.snoc
    rcases redeemWindow_step hv hs with ⟨hsame, -⟩ | ⟨c, amount, rfl, haccept, -⟩
    · rw [hsame]
      exact (ih hbefore).mono hle
    · have hfirst := hbefore.first_le
      have hw := UInt32.le_iff_toNat_le.1 hb.instantRedeemWindowSeconds.1
      have h60 : (60 : UInt32).toNat = 60 := rfl
      rw [lastClock_call] at hle ⊢
      refine (ih hbefore).accept (a := attemptOf c v amount) ?_ hle ?_ haccept
      · change 0 < v.config.instantRedeemWindowSeconds.toNat
        omega
      · change 0 < c.now
        omega

/-- What the buckets say of a run: their spends are what the treasury has lost, and an emptier
window than the stored one would hold them. -/
structure Drains (B w : ℕ) (t₀ t last : ℤ) (es : List Entry) (v : World) : Prop where
  budget : v.config.instantRedeemBudgetUsdc.toNat ≤ B
  window : w ≤ v.config.instantRedeemWindowSeconds.toNat
  account : ∃ σ bs, Stored w B σ last v.config.instantRedeemWindowSeconds.toNat bs ∧
    σ.counter.Le v.config.redeemWindow.counter ∧
    drained es ≤ ((spends bs).map Prod.snd).sum ∧ ∀ op ∈ spends bs, t₀ ≤ op.1 ∧ op.1 < t

variable {B m : ℕ} {t₀ t last last' : ℤ} {es : List Entry}

theorem Drains.step (hv : Vaults rt w) (h : Step rt w e w')
    (hd : Drains B m t₀ t last es w) (hm : 1 ≤ m) (hpos : 0 < last) (hle : last ≤ last')
    (hcall : ∀ c, e = .call c → last' = c.now ∧ t₀ ≤ c.now ∧ c.now < t)
    (hout : ∀ n, ¬ Executes .withdrawUsdc n ⟨w, e, w'⟩)
    (hloose : ∀ n, ¬ Executes .setRedeemLimits n ⟨w, e, w'⟩) :
    Drains B m t₀ t last' (es ++ [⟨w, e, w'⟩]) w' := by
  obtain ⟨hbudget, hwindow, σ, bs, hstored, hless, hdrained, hin⟩ := hd
  have hlimits : w'.config.instantRedeemBudgetUsdc.toNat ≤
        w.config.instantRedeemBudgetUsdc.toNat ∧
      w.config.instantRedeemWindowSeconds.toNat ≤
        w'.config.instantRedeemWindowSeconds.toNat := by
    rw [← UInt64.le_iff_toNat_le, ← UInt32.le_iff_toNat_le]
    rcases step_cases h with ⟨c, rfl, -, he⟩ | ⟨-, he⟩
    · exact limits_of_effect he fun n r a hix => hloose n ⟨c, r, a, rfl, hix⟩
    · rw [he.config]
      exact ⟨UInt64.le_refl _, UInt32.le_refl _⟩
  refine ⟨hlimits.1.trans hbudget, hwindow.trans hlimits.2, ?_⟩
  rw [drained_snoc]
  dsimp only
  rcases redeemWindow_step hv h with ⟨hsame, hkept⟩ | ⟨c, amount, rfl, haccept, hpaid⟩
  · have hrise : w.treasuryBalance ≤ w'.treasuryBalance := by
      by_contra hlt
      obtain ⟨n, hn⟩ := hkept (not_le.1 hlt)
      exact hout n hn
    exact ⟨σ, bs, hstored.mono hle hlimits.2, hsame ▸ hless, by omega, hin⟩
  · obtain ⟨rfl, hstart, hend⟩ := hcall c rfl
    obtain ⟨σ', hσ, hless'⟩ := accept_mono (a := attemptOf c w amount) (hm.trans hwindow) hless
      haccept
    obtain ⟨bs', hstored', hspends⟩ := hstored.accept (a := attemptOf c w amount) (by omega)
      c.now_i64 (by exact hpos.trans_le hle) hle le_rfl (by exact_mod_cast hwindow) hbudget hσ
    refine ⟨σ', bs', hstored'.mono le_rfl hlimits.2, hless', ?_, ?_⟩
    · rw [hspends, List.map_append, List.sum_append]
      simp only [attemptOf, List.map_cons, List.map_nil, List.sum_singleton]
      omega
    · rw [hspends]
      intro op hop
      rcases List.mem_append.1 hop with hop | hop
      · exact hin op hop
      · rw [List.mem_singleton.1 hop]
        exact ⟨hstart, hend⟩

theorem spentIn_all {u : ℤ} {ops : List Spend} (h : ∀ op ∈ ops, t ≤ op.1 ∧ op.1 < u) :
    spentIn t u ops = (ops.map Prod.snd).sum := by
  unfold spentIn
  rw [List.filter_eq_self.2 fun op hop => decide_eq_true (h op hop)]

theorem Drains.le {n : ℕ} (hd : Drains B m t₀ t last es w) (hm : 1 ≤ m)
    (hn : t ≤ t₀ + n * m) : drained es ≤ (n + 1) * B := by
  obtain ⟨-, -, σ, bs, hstored, -, hdrained, hin⟩ := hd
  calc drained es
      ≤ ((spends bs).map Prod.snd).sum := hdrained
    _ = spentIn t₀ (t₀ + n * m) (spends bs) :=
        (spentIn_all fun op hop => ⟨(hin op hop).1, (hin op hop).2.trans_le hn⟩).symm
    _ ≤ (n + 1) * B := spentIn_le (by omega) hstored.spaced n t₀

end Outflow

/-- From any state of a run, as long as no withdrawal and no new limits fall due within a day, the
day sees none, and all that leaves the treasury is `n + 1` budgets where `n` windows make a day,
whoever signs what. -/
theorem day_drains_budget {rt : Runtime} {now₀ t₀ : ℤ} {w₀ w w' : World} {hs es : List Entry}
    {n : ℕ} (h₀ : Initialized rt now₀ w₀) (hpos : 0 < now₀) (past : Run rt w₀ hs w)
    (run : Run rt w es w') (clock : ClockMonotone now₀ (hs ++ es))
    (hday : During t₀ (t₀ + 86400) es) (hout : Undue (t₀ + 86400) .withdrawUsdc w)
    (hloose : Undue (t₀ + 86400) .setRedeemLimits w)
    (hn : 86400 ≤ n * w.config.instantRedeemWindowSeconds.toNat) :
    (∀ r ∈ es, ∀ m, ¬ Executes .withdrawUsdc m r ∧ ¬ Executes .setRedeemLimits m r) ∧
      drained es ≤ (n + 1) * w.config.instantRedeemBudgetUsdc.toNat := by
  have hv := vaults_of_run h₀ past
  have hb := bounded_of_reachable ⟨now₀, w₀, hs, h₀, past⟩
  have hnone : ∀ r ∈ es, ∀ m, ¬ Executes .withdrawUsdc m r ∧ ¬ Executes .setRedeemLimits m r :=
    fun r hr m => ⟨not_executes_of_run hb hout run hday r hr m,
      not_executes_of_run hb hloose run hday r hr m⟩
  have hwindow := UInt32.le_iff_toNat_le.1 hb.instantRedeemWindowSeconds.1
  have h60 : (60 : UInt32).toNat = 60 := rfl
  refine ⟨hnone, ?_⟩
  have hdrains := run.history (I := fun es v => Vaults rt v ∧ Bounded v.config ∧
    (ClockMonotone now₀ (hs ++ es) → During t₀ (t₀ + 86400) es →
      (∀ r ∈ es, ∀ m, ¬ Executes .withdrawUsdc m r ∧ ¬ Executes .setRedeemLimits m r) →
      Drains w.config.instantRedeemBudgetUsdc.toNat w.config.instantRedeemWindowSeconds.toNat t₀
        (t₀ + 86400) (lastClock now₀ (hs ++ es)) es v)) ?_ ?_
  · exact (hdrains.2.2 clock hday hnone).le (by omega) (by omega)
  · refine ⟨hv, hb, fun clock _ _ => ?_⟩
    rw [List.append_nil] at clock ⊢
    obtain ⟨bs, hstored, hbs⟩ := (started_of_run h₀ hpos past clock).stored
      w.config.instantRedeemWindowSeconds.toNat w.config.instantRedeemBudgetUsdc.toNat
      w.config.instantRedeemWindowSeconds.toNat
    refine ⟨le_rfl, le_rfl, _, bs, hstored, Window.emptied_le _, ?_, ?_⟩
    · rw [hbs]; rfl
    · rw [hbs]; nofun
  · intro rs v e v' ⟨hv, hb, ih⟩ hs
    refine ⟨hv.step hs, hb.step hs, fun clock hday hnone => ?_⟩
    rw [← List.append_assoc] at clock ⊢
    obtain ⟨hbefore, hle⟩ := clock.snoc
    have hold := ih hbefore (fun r hr => hday r (List.mem_append_left _ hr))
      fun r hr => hnone r (List.mem_append_left _ hr)
    have hnew := hnone _ List.mem_concat_self
    refine hold.step hv hs (by omega) (hpos.trans_le hbefore.first_le) hle ?_
      (fun m => (hnew m).1) fun m => (hnew m).2
    rintro c rfl
    exact ⟨lastClock_call c, hday _ List.mem_concat_self c rfl⟩

def openedMarket : World :=
  Reference.final Reference.runtime Reference.start (Reference.tradeCalls.take 2)

theorem undue_openedMarket (t : ℤ) (k : TimelockAction) : Undue t k openedMarket := by
  intro n tl hn
  have hnone : openedMarket.config.pendingNonce k = none := by cases k <;> decide +kernel
  rw [hnone] at hn
  cases hn

theorem day_drains_budget_redeemCall :
    drained (Reference.entries Reference.runtime openedMarket [Reference.redeemCall]) ≤
      (1 + 1) * openedMarket.config.instantRedeemBudgetUsdc.toNat := by
  have past : Run Reference.runtime Reference.start (Reference.entries Reference.runtime
      Reference.start (Reference.tradeCalls.take 2)) openedMarket :=
    Reference.run_of_succeeds (by decide +kernel)
  have run : Run Reference.runtime openedMarket (Reference.entries Reference.runtime openedMarket
      [Reference.redeemCall]) _ := Reference.run_of_succeeds (by decide +kernel)
  have hday : During 3000 (3000 + 86400) (Reference.entries Reference.runtime openedMarket
      [Reference.redeemCall]) :=
    Reference.forall_entries (p := fun c => 3000 ≤ c.now ∧ c.now < 3000 + 86400)
      (by decide +kernel)
  have hn : 86400 ≤ 1 * openedMarket.config.instantRedeemWindowSeconds.toNat := by decide +kernel
  exact (day_drains_budget Reference.initialized_start (by decide) past run
    (by unfold ClockMonotone; decide +kernel) hday (undue_openedMarket _ _)
    (undue_openedMarket _ _) hn).2

example : drained (Reference.entries Reference.runtime openedMarket [Reference.redeemCall]) =
    90000000 := by decide +kernel

end DominionSilver
