import DominionSilver.Proofs.Bounds
import DominionSilver.Proofs.Timelock

/-! No timelocked effect without notice. What an execute applies was announced
by the one propose that issued its nonce, at least a timelock before, and has
since been neither executed, nor cancelled, nor disarmed. The fields that only
the timelock may change change at no other step. -/

namespace DominionSilver

open Checked Bytes Tokens

/-- The step is an execute of the account with nonce `n`. -/
def Executes (k : TimelockAction) (n : UInt64) (r : Entry) : Prop :=
  ∃ c rent ata, r.event = .call c ∧ c.ix = .execute k n rent ata

def Cancels (n : UInt64) (r : Entry) : Prop :=
  ∃ c guardian rent, r.event = .call c ∧ c.ix = .cancelTimelockedAction n guardian rent

/-- The step is an instant close of the slot that holds `n`. -/
def Disarms (n : UInt64) (r : Entry) : Prop :=
  ∃ c k, r.event = .call c ∧ instantClose c.ix = some k ∧ r.pre.config.pendingNonce k = some n

/-- The step proposes `change` under nonce `n`, at least its timelock before `now`. -/
def Proposes (n : UInt64) (change : Change) (now : ℤ) (r : Entry) : Prop :=
  ∃ c, r.event = .call c ∧ c.ix = .propose change ∧ r.pre.config.nextTimelockNonce = n ∧
    86400 ≤ r.pre.config.adminTimelockSeconds ∧
    c.now + r.pre.config.adminTimelockSeconds.toNat ≤ now

/-- One step of `before` proposes `change` under `n` in time for `now`, and no other issues `n`. -/
def ProposedOnce (before : List Entry) (n : UInt64) (change : Change) (now : ℤ) : Prop :=
  ∃ as r bs, before = as ++ r :: bs ∧ Proposes n change now r ∧
    ∀ x ∈ as ++ bs, issuedNonce x ≠ some n

/-- Executing `n` for `k` at `now` applies a change of kind `k` that `before` gave notice of. -/
def Notified (rt : Runtime) (before : List Entry) (k : TimelockAction) (n : UInt64) (now : ℤ)
    (ata : Pubkey) (w w' : World) : Prop :=
  ∃ change w₁, change.kind = k ∧ Applied rt ata w change w₁ ∧ w' = closeTimelock k n w₁ ∧
    ProposedOnce before n change now ∧
    ∀ x ∈ before, (∀ k', ¬ Executes k' n x) ∧ ¬ Cancels n x ∧ ¬ Disarms n x

/-- The fields that only the execute of `k` may change. -/
def SameFields (k : TimelockAction) (c c' : ConfigAccount) : Prop :=
  match k with
  | .setPremiumMint => c'.premiumBpsMint = c.premiumBpsMint
  | .setPremiumRedeem => c'.premiumBpsRedeem = c.premiumBpsRedeem
  | .setTreasuryFloat => c'.treasuryMinFloatUsdc = c.treasuryMinFloatUsdc
  | .setOracleGuards =>
      c'.maxStalenessSeconds = c.maxStalenessSeconds ∧ c'.maxConfidenceBps = c.maxConfidenceBps ∧
        c'.minPriceUsdScaled = c.minPriceUsdScaled ∧ c'.maxPriceUsdScaled = c.maxPriceUsdScaled ∧
        c'.maxPriceDeltaBps = c.maxPriceDeltaBps ∧
        c'.priceDeltaDecaySeconds = c.priceDeltaDecaySeconds ∧
        c'.priceUpdateMinAmountUsdc = c.priceUpdateMinAmountUsdc ∧
        c'.minPublishers = c.minPublishers
  | .setComplianceMode => c'.complianceMode = c.complianceMode
  | .setPythFeed => c'.pythLazerFeedId = c.pythLazerFeedId
  | .setAdminTimelock => c'.adminTimelockSeconds = c.adminTimelockSeconds
  | .setInventoryWallet => c'.inventoryWallet = c.inventoryWallet
  | .withdrawUsdc | .updateMetadata | .setRedeemLimits | .setPublicMint => True

theorem sameFields_of_applied {rt : Runtime} {ata : Pubkey} {w w₁ : World} {change : Change}
    {k : TimelockAction} (h : Applied rt ata w change w₁) (hk : change.kind ≠ k) :
    SameFields k w.config w₁.config := by
  cases h <;> cases k <;> first
    | exact absurd rfl hk
    | exact trivial
    | rfl
    | exact ⟨rfl, rfl, rfl, rfl, rfl, rfl, rfl, rfl⟩

theorem sameFields_of_effect {rt : Runtime} {now : ℤ} {signer : Pubkey} {ix : Instruction}
    {w w' : World} {k : TimelockAction} (h : Effect rt now signer w ix w')
    (hk : ∀ n rent ata, ix ≠ .execute k n rent ata) : SameFields k w.config w'.config := by
  cases h with
  | execute _ _ kind applied =>
    have hs := sameFields_of_applied (k := k) applied
      fun e => hk _ _ _ (by rw [← kind, e])
    cases k <;> exact hs
  | _ =>
    cases k <;> first
      | exact trivial
      | rfl
      | exact ⟨rfl, rfl, rfl, rfl, rfl, rfl, rfl, rfl⟩

section Registry

variable {rt : Runtime} {w w' : World} {e : Event} {r : Entry} {n : UInt64}

theorem propose_of_label {p : Proposal TimelockAction Change} (h : labelAt r = .propose n p) :
    ∃ c, r.event = .call c ∧ c.ix = .propose p.payload ∧ p.kind = p.payload.kind ∧
      r.pre.config.nextTimelockNonce = n ∧
      p.due = c.now + r.pre.config.adminTimelockSeconds.toNat := by
  unfold labelAt at h
  split at h
  · rename_i c hc
    unfold labelOf at h
    split at h
    · rename_i change hix
      obtain ⟨rfl, rfl⟩ := Registry.Action.propose.inj h
      exact ⟨c, hc, hix, rfl, rfl, rfl⟩
    · split at h <;> cases h
    · cases h
    · split at h <;> cases h
  · cases h

theorem issues_of_issuedNonce (h : issuedNonce r = some n) : Registry.Issues n (noticeAt r) := by
  unfold issuedNonce at h
  split at h
  · rename_i c hc
    split at h
    · rename_i change hix
      obtain rfl := Option.some.inj h
      exact ⟨⟨change.kind, change, _⟩, by simp only [noticeAt, labelAt, hc, hix, labelOf]; rfl⟩
    · cases h
  · cases h

theorem closes_of_executes {k : TimelockAction} (hs : Step rt r.pre r.event r.post)
    (h : Executes k n r) : Registry.Closes n (noticeAt r) := by
  obtain ⟨pre, event, post⟩ := r
  obtain ⟨c, rent, ata, rfl, hix⟩ := h
  have he := effect_of_call hs hix
  cases he with
  | execute timelock decoded =>
    have ha := announced_of_opened timelock decoded
    exact .inr ⟨k, _, c.now, by simp only [noticeAt, labelAt, hix, labelOf, ha]; rfl⟩

theorem closes_of_cancels (h : Cancels n r) : Registry.Closes n (noticeAt r) := by
  obtain ⟨c, guardian, rent, hc, hix⟩ := h
  exact .inl (by simp only [noticeAt, labelAt, hc, hix, labelOf])

theorem disarms_of_disarms (h : Disarms n r) : Registry.Disarms n (noticeAt r) := by
  obtain ⟨c, k, hc, hclose, hslot⟩ := h
  refine ⟨k, ?_, hslot⟩
  simp only [noticeAt, labelAt, hc]
  unfold labelOf
  split
  · rename_i hix; rw [hix] at hclose; cases hclose
  · rename_i hix; rw [hix] at hclose; cases hclose
  · rename_i hix; rw [hix] at hclose; cases hclose
  · rw [hclose]

end Registry

theorem proposedOnce_of_noticed {rt : Runtime} {now₀ now : ℤ} {w₀ w : World} {es : List Entry}
    {n : UInt64} {p : Proposal TimelockAction Change} (h₀ : Initialized rt now₀ w₀)
    (run : Run rt w₀ es w) (h : Registry.Noticed (es.map noticeAt) n p) (hdue : p.due ≤ now) :
    ProposedOnce es n p.payload now := by
  obtain ⟨as, q, bs, hes, hq, has, hbs⟩ := h
  obtain ⟨as, qbs, rfl, rfl, hqbs⟩ := List.map_eq_append_iff.1 hes
  obtain ⟨r, bs, rfl, rfl, rfl⟩ := List.map_eq_cons_iff.1 hqbs
  obtain ⟨c, hc, hix, -, hn, hd⟩ := propose_of_label hq
  have hr : Reachable rt r.pre := ⟨now₀, w₀, as, h₀, run.split.1⟩
  refine ⟨as, r, bs, rfl, ⟨c, hc, hix, hn, (bounded_of_reachable hr).adminTimelockSeconds.1,
    hd ▸ hdue⟩, ?_⟩
  intro x hx hi
  rcases List.mem_append.1 hx with hx | hx
  · exact has _ (List.mem_map_of_mem hx) (.inl (issues_of_issuedNonce hi))
  · exact (hbs _ (List.mem_map_of_mem hx)).1 (issues_of_issuedNonce hi)

theorem notified_of_execute {rt : Runtime} {now₀ : ℤ} {w₀ w w' : World} {es : List Entry} {c : Call}
    {k : TimelockAction} {n : UInt64} {rent ata : Pubkey} (h₀ : Initialized rt now₀ w₀)
    (run : Run rt w₀ es w) (h : exec rt c w = .ok w') (hix : c.ix = .execute k n rent ata) :
    Notified rt es k n c.now ata w w' := by
  obtain ⟨hl, hs⟩ := notices_initial h₀
  have he := (effect_of_exec h).2
  have hstep := notices_step (run.invariant (queueSound_initial h₀) QueueSound.step) he
  rw [hix] at he hstep
  cases he with
  | @execute _ _ _ _ tl change w₁ timelock decoded kind applied =>
    rw [labelOf, announced_of_opened timelock decoded] at hstep
    obtain ⟨due, hdue, hnoticed, hopen⟩ :=
      Registry.no_effect_without_notice hl hs (refines h₀ run) hstep
    refine ⟨change, w₁, kind, applied, rfl,
      proposedOnce_of_noticed h₀ run hnoticed hdue, ?_⟩
    intro x hx
    obtain ⟨hc, hd⟩ := hopen _ (List.mem_map_of_mem hx)
    obtain ⟨_, _, hsx⟩ := run.step_of_mem hx
    exact ⟨fun k' h => hc (closes_of_executes hsx h), fun h => hc (closes_of_cancels h),
      fun h => hd (disarms_of_disarms h)⟩

/-- Every execute of a run was announced, once and in time, and every timelocked field changes only
when its own kind is executed. -/
theorem no_timelocked_effect_without_notice {rt : Runtime} {now₀ : ℤ} {w₀ w : World}
    {es : List Entry} (h₀ : Initialized rt now₀ w₀) (run : Run rt w₀ es w) :
    (∀ before r after, es = before ++ r :: after → ∀ c k n rent ata, r.event = .call c →
      c.ix = .execute k n rent ata → Notified rt before k n c.now ata r.pre r.post) ∧
    ∀ r ∈ es, ∀ k, (∀ n, ¬ Executes k n r) → SameFields k r.pre.config r.post.config := by
  constructor
  · rintro before r after rfl c k n rent ata hc hix
    obtain ⟨hrun, hstep, -⟩ := run.split
    rw [hc] at hstep
    exact notified_of_execute h₀ hrun hstep hix
  · intro r hr k hk
    obtain ⟨_, _, hstep⟩ := run.step_of_mem hr
    rcases step_cases hstep with ⟨c, hc, -, he⟩ | ⟨-, he⟩
    · exact sameFields_of_effect he fun n rent ata hix => hk n ⟨c, rent, ata, hc, hix⟩
    · rw [he.config]
      cases k <;> first
        | exact trivial
        | rfl
        | exact ⟨rfl, rfl, rfl, rfl, rfl, rfl, rfl, rfl⟩

theorem no_timelocked_effect_without_notice_queueCalls :
    Notified Reference.runtime
      (Reference.entries Reference.runtime Reference.start (queueCalls.take 2))
      .setTreasuryFloat 0 89400 Reference.admin
      (Reference.final Reference.runtime Reference.start (queueCalls.take 2))
      (Reference.final Reference.runtime Reference.start (queueCalls.take 3)) :=
  (no_timelocked_effect_without_notice Reference.initialized_start
    (@Reference.run_of_succeeds _ _ queueCalls (by decide +kernel))).1 _
      ⟨_, .call Reference.executeFloat, _⟩ _ rfl Reference.executeFloat _ _ _ _ rfl rfl

end DominionSilver
