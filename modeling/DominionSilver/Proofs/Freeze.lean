import DominionSilver.Proofs.Money
import DominionSilver.Proofs.Supply

/-! The freeze while the program is paused. Every instruction that pays out,
issues, redirects or loosens asks for a running program, so a paused one keeps
what it holds until the admin unpauses it before an independent guardian. -/

namespace DominionSilver

open Checked Bytes Tokens

/-- `w'` holds what `w` held, under limits at least as tight. -/
structure Frozen (rt : Runtime) (w w' : World) : Prop where
  treasury : w.treasuryBalance ≤ w'.treasuryBalance
  feeVault : w.feeVaultBalance rt ≤ w'.feeVaultBalance rt
  supply : w'.silvMint.supply = w.silvMint.supply
  inventoryWallet : w'.config.inventoryWallet = w.config.inventoryWallet
  limits : Tightens w.config w'.config

theorem Tightens.refl (c : ConfigAccount) : Tightens c c := .of_eq rfl rfl rfl rfl

theorem Tightens.trans {c₁ c₂ c₃ : ConfigAccount} (h : Tightens c₁ c₂) (h' : Tightens c₂ c₃) :
    Tightens c₁ c₃ :=
  ⟨UInt64.le_trans h'.budget h.budget, UInt32.le_trans h.window h'.window,
    fun he => h.redemptions (h'.redemptions he), fun he => h.publicMint (h'.publicMint he)⟩

theorem Frozen.refl (rt : Runtime) (w : World) : Frozen rt w w :=
  ⟨le_rfl, le_rfl, rfl, rfl, .refl _⟩

theorem Frozen.trans {rt : Runtime} {w₁ w₂ w₃ : World} (h : Frozen rt w₁ w₂)
    (h' : Frozen rt w₂ w₃) : Frozen rt w₁ w₃ :=
  ⟨h.treasury.trans h'.treasury, h.feeVault.trans h'.feeVault, h'.supply.trans h.supply,
    h'.inventoryWallet.trans h.inventoryWallet, h.limits.trans h'.limits⟩

section Effects

variable {rt : Runtime} {now : ℤ} {signer : Pubkey} {ix : Instruction} {w w' : World}

/-- The instructions that ask for a running program. -/
def needsRunning : Instruction → Bool
  | .mintSilv .. | .redeemSilv .. | .withdrawFees .. | .adminPremint .. => true
  | .execute k _ _ _ => k = .withdrawUsdc || k = .setRedeemLimits || k = .setPublicMint ||
      k = .setInventoryWallet
  | _ => false

theorem unpaused_of_applied {ata : Pubkey} {change : Change} (h : Applied rt ata w change w')
    (hk : change.kind = .withdrawUsdc ∨ change.kind = .setRedeemLimits ∨
      change.kind = .setPublicMint ∨ change.kind = .setInventoryWallet) :
    w.config.paused = false := by
  cases h with
  | withdrawUsdc _ _ _ _ unpaused => exact unpaused
  | redeemLimits unpaused => exact unpaused
  | publicMint unpaused => exact unpaused
  | inventoryWallet unpaused => exact unpaused
  | _ => simp [Change.kind] at hk

theorem unpaused_of_effect (h : Effect rt now signer w ix w') (hn : needsRunning ix = true) :
    w.config.paused = false := by
  cases h with
  | mintSilv minted => exact minted.unpaused
  | redeemSilv redeemed => exact redeemed.unpaused
  | withdrawFees _ swept => exact swept.unpaused
  | adminPremint _ _ _ _ unpaused => exact unpaused
  | execute _ _ kind applied =>
    apply unpaused_of_applied applied
    simpa [needsRunning, kind, or_assoc] using hn
  | _ => cases hn

theorem supply_of_effect (h : Effect rt now signer w ix w') (hn : needsRunning ix = false) :
    w'.silvMint.supply = w.silvMint.supply := by
  cases h with
  | mintSilv => cases hn
  | redeemSilv => cases hn
  | adminPremint => cases hn
  | execute _ _ _ applied =>
    have hsupply := supply_of_applied applied
    exact hsupply
  | _ => rfl

/-- A program is unpaused by its admin, before an active guardian that is not the admin, with the
digest of its config. -/
def Unpauses (rt : Runtime) (r : Entry) : Prop :=
  ∃ c k g, r.event = .call c ∧ c.ix = .unpause (rt.hash r.pre.config.readinessBytes) k ∧
    c.signer = r.pre.config.admin ∧ r.pre.guardians.lookup k = some g ∧ g.guardian = k ∧
    g.cooldownUntil = 0 ∧ k ≠ r.pre.config.admin

theorem paused_of_applied {ata : Pubkey} {change : Change} (h : Applied rt ata w change w')
    (hp : w.config.paused = true) : w'.config.paused = true := by
  cases h <;> first | exact hp | rfl

theorem unpauses_of_call {c : Call} (h : exec rt c w = .ok w') (hp : w.config.paused = true)
    (hp' : w'.config.paused = false) : Unpauses rt ⟨w, .call c, w'⟩ := by
  obtain ⟨now, hnow, signer, ix⟩ := c
  have he : Effect rt now signer w ix w' := (effect_of_exec h).2
  have still : w'.config.paused = w.config.paused → Unpauses rt ⟨w, .call ⟨now, hnow, signer, ix⟩,
      w'⟩ := fun heq => by rw [heq, hp] at hp'; cases hp'
  cases he with
  | unpause admin found own active _ independent ready =>
    exact ⟨_, _, _, rfl, by rw [← ready], admin.symm, found, own, active, own ▸ independent⟩
  | pause => cases hp'
  | execute _ _ _ applied =>
    rw [closeTimelock, paused_of_applied applied hp] at hp'
    cases hp'
  | _ => exact still rfl

end Effects

theorem frozen_of_call {rt : Runtime} {c : Call} {w w' : World} (hw : Vaults rt w)
    (h : exec rt c w = .ok w') (hp : w.config.paused = true) : Frozen rt w w' := by
  have he := (effect_of_exec h).2
  have hn : needsRunning c.ix = false := Bool.eq_false_iff.2 fun hn => by
    rw [unpaused_of_effect he hn] at hp; cases hp
  have hstep : Step rt w (.call c) w' := h
  refine ⟨?_, ?_, supply_of_effect he hn, ?_, ?_⟩
  · by_contra hlt
    rcases redeem_or_withdrawal_of_treasury_lt hw hstep (not_le.1 hlt) with
      ⟨_, _, _, _, hc, hix⟩ | ⟨_, _, _, _, hc, hix⟩
    all_goals
      obtain rfl := Event.call.inj hc
      rw [hix] at hn
      cases hn
  · by_contra hlt
    obtain ⟨_, _, _, hc, hix⟩ := sweep_of_feeVault_lt hw hstep (not_le.1 hlt)
    obtain rfl := Event.call.inj hc
    rw [hix] at hn
    cases hn
  · exact sameFields_of_effect (k := .setInventoryWallet) he fun _ _ _ hix => by
      rw [hix] at hn; cases hn
  · exact tightens_of_effect he (fun _ _ _ hix => by rw [hix] at hn; cases hn)
      fun _ _ _ hix => by rw [hix] at hn; cases hn

/-- While every instruction of a run finds the program paused, nothing leaves the vaults, no SILV is
issued or burned, the inventory wallet stays and no limit loosens; and what ends the pause is an
unpause. -/
theorem pause_freezes {rt : Runtime} {w w' : World} {es : List Entry} (h : Reachable rt w)
    (run : Run rt w es w') (hcalls : ∀ r ∈ es, ∃ c, r.event = .call c)
    (hpaused : ∀ r ∈ es, r.pre.config.paused = true) :
    Frozen rt w w' ∧ (∀ r ∈ es, Frozen rt r.pre r.post) ∧
      ∀ r ∈ es, r.post.config.paused = false → Unpauses rt r := by
  obtain ⟨now₀, w₀, es₀, h₀, run₀⟩ := h
  have hvaults := vaults_of_run h₀ run₀
  have hfrozen : ∀ r ∈ es, Frozen rt r.pre r.post := by
    intro r hr
    obtain ⟨as, hrun, hs⟩ := run.step_of_mem hr
    obtain ⟨c, hc⟩ := hcalls r hr
    rw [hc] at hs
    exact frozen_of_call (hrun.invariant hvaults Vaults.step) hs (hpaused r hr)
  refine ⟨?_, hfrozen, ?_⟩
  · exact run.kept (q := fun r => ¬ Frozen rt r.pre r.post) (.refl rt w)
      (fun hw _ hf => hw.trans (not_not.1 hf)) fun r hr hf => hf (hfrozen r hr)
  · intro r hr hp
    obtain ⟨_, _, hs⟩ := run.step_of_mem hr
    obtain ⟨c, hc⟩ := hcalls r hr
    obtain ⟨pre, event, post⟩ := r
    obtain rfl : event = .call c := hc
    exact unpauses_of_call hs (hpaused _ hr) hp

/-- A proposal, a tighter budget and a deposit on a program that has never been unpaused, and the
unpause that opens it. -/
def pausedCalls : List Call :=
  [Reference.proposeFloat,
    Reference.callAt 3001 Reference.admin
      (.emergencyTightenRedeemLimits ⟨some 10000000000, none, none, none, none⟩),
    Reference.callAt 3002 Reference.user
      (.depositUsdc 2000000 (Reference.ata Reference.user USDC_DEVNET)),
    Reference.executeFloat,
    Reference.unpauseCall]

theorem pause_freezes_pausedCalls :
    Frozen Reference.runtime Reference.start
      (Reference.final Reference.runtime Reference.start pausedCalls) :=
  (pause_freezes ⟨1000, _, _, Reference.initialized_start, .nil⟩
    (@Reference.run_of_succeeds _ _ pausedCalls (by decide +kernel))
    Reference.entries_calls (by decide +kernel)).1

end DominionSilver
