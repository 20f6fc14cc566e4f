import DominionSilver.Sanity.Emitted
import DominionSilver.Sanity.Reference

/-! The posture of the program, read off its events. Whoever replays them from
the posture at some time knows at every later one who is admin, what is paused,
open and enabled, and where the limits that are announced stand; and every event
is true of what the ones before it say. -/

namespace DominionSilver

open Checked Bytes Tokens Journal

/-- The settings whose every change is announced. -/
structure Posture where
  admin : Pubkey
  pendingAdmin : Option Pubkey
  pendingAdminEta : ℤ
  pendingAdminExpiresAt : ℤ
  paused : Bool
  publicMintEnabled : Bool
  redemptionsEnabled : Bool
  complianceMode : Bool
  feeRoutingDisabled : Bool
  maxSilvSupply : UInt64
  minOperationUsdc : UInt64
  inventoryWallet : Pubkey
  kycOperator : Pubkey
  kycScopeFlags : UInt8
deriving DecidableEq

def ConfigAccount.posture (c : ConfigAccount) : Posture where
  admin := c.admin
  pendingAdmin := c.pendingAdmin
  pendingAdminEta := c.pendingAdminEta
  pendingAdminExpiresAt := c.pendingAdminExpiresAt
  paused := c.paused
  publicMintEnabled := c.publicMintEnabled
  redemptionsEnabled := c.redemptionsEnabled
  complianceMode := c.complianceMode
  feeRoutingDisabled := c.feeRoutingDisabled
  maxSilvSupply := c.maxSilvSupply
  minOperationUsdc := c.minOperationUsdc
  inventoryWallet := c.inventoryWallet
  kycOperator := c.kycOperator
  kycScopeFlags := c.kycScopeFlags

namespace Posture

def read (p : Posture) : ProgramEvent → Posture
  | .paused _ _ => { p with paused := true }
  | .unpaused _ => { p with paused := false }
  | .publicMintEnabledChanged _ new _ => { p with publicMintEnabled := new }
  | .redemptionsEnabledChanged _ new _ => { p with redemptionsEnabled := new }
  | .complianceModeChanged new => { p with complianceMode := new }
  | .feeRoutingChanged enabled _ _ => { p with feeRoutingDisabled := !enabled }
  | .maxSupplyChanged _ new _ _ => { p with maxSilvSupply := new }
  | .minOperationChanged _ new _ => { p with minOperationUsdc := new }
  | .inventoryWalletChanged _ new _ => { p with inventoryWallet := new }
  | .kycOperatorChanged _ new _ _ => { p with kycOperator := new }
  | .kycScopeChanged _ new _ _ => { p with kycScopeFlags := new }
  | .adminTransferProposed _ proposed eta expiresAt =>
      { p with
        pendingAdmin := some proposed, pendingAdminEta := eta, pendingAdminExpiresAt := expiresAt }
  | .adminTransferAccepted _ new =>
      { p with
        admin := new, pendingAdmin := none, pendingAdminEta := 0, pendingAdminExpiresAt := 0 }
  | .adminTransferCancelled _ _ =>
      { p with pendingAdmin := none, pendingAdminEta := 0, pendingAdminExpiresAt := 0 }
  | _ => p

/-- What an event says of the posture that it finds: the old value it names is the one in force,
its signer is the admin or the operator in force, and trades only happen where they are open. -/
def Agrees (p : Posture) : ProgramEvent → Prop
  | .mintEvent .. => p.paused = false ∧ p.publicMintEnabled = true
  | .redeemEvent .. => p.paused = false ∧ p.redemptionsEnabled = true
  | .premintEvent inventory _ supplyPost _ by_ =>
      p.paused = false ∧ inventory = p.inventoryWallet ∧ supplyPost ≤ p.maxSilvSupply ∧
        by_ = p.admin
  | .treasuryWithdraw .. => p.paused = false
  | .feesWithdrawn _ _ _ by_ _ => p.paused = false ∧ by_ = p.admin
  | .publicMintEnabledChanged old new by_ =>
      old = p.publicMintEnabled ∧ new ≠ old ∧ (new = true → p.paused = false) ∧ by_ = p.admin
  | .redemptionsEnabledChanged old new by_ =>
      old = p.redemptionsEnabled ∧ (new = true → p.paused = false) ∧ by_ = p.admin
  | .redeemLimitsTightened _ _ _ _ by_ => by_ = p.admin
  | .complianceModeChanged new => new ≠ p.complianceMode ∧ p.paused = true
  | .feeRoutingChanged enabled by_ _ => enabled = p.feeRoutingDisabled ∧ by_ = p.admin
  | .maxSupplyChanged old new liveSupply by_ =>
      old = p.maxSilvSupply ∧ new ≤ old ∧ liveSupply ≤ new ∧ by_ = p.admin
  | .minOperationChanged old new by_ => old = p.minOperationUsdc ∧ old ≠ new ∧ by_ = p.admin
  | .inventoryWalletChanged old new by_ =>
      old = p.inventoryWallet ∧ new ≠ old ∧ p.paused = false ∧ by_ = p.admin
  | .kycOperatorChanged old new by_ _ => old = p.kycOperator ∧ new ≠ p.admin ∧ by_ = p.admin
  | .kycScopeChanged old new by_ _ => old = p.kycScopeFlags ∧ new ≠ old ∧ by_ = p.admin
  | .kycAttested _ attestor _ _ => attestor = p.kycOperator
  | .kycRevoked _ by_ _ => by_ = p.kycOperator ∨ by_ = p.admin
  | .feeExemptSet _ _ _ by_ _ | .feeExemptRemoved _ _ by_ _ => by_ = p.admin
  | .adminActionProposed _ _ _ proposer => proposer = p.admin
  | .adminActionExecuted _ _ executor => executor = p.admin
  | .guardianAdded guardian => guardian ≠ p.admin ∧ p.pendingAdmin ≠ some guardian
  | .adminTransferProposed current proposed eta expiresAt =>
      current = p.admin ∧ proposed ≠ p.admin ∧ eta < expiresAt
  | .adminTransferAccepted old new => old = p.admin ∧ p.pendingAdmin = some new
  | .adminTransferCancelled cancelled _ => cancelled = p.pendingAdmin
  | _ => True

def monitor : Monitor Posture ProgramEvent := ⟨read, Agrees⟩

@[simp] theorem monitor_read (p : Posture) (e : ProgramEvent) : monitor.read p e = p.read e := rfl

@[simp] theorem monitor_agrees (p : Posture) (e : ProgramEvent) :
    monitor.agrees p e ↔ p.Agrees e := Iff.rfl

end Posture

section Changes

variable {rt : Runtime} {w w₁ : World} {now : ℤ} {admin recipientAta : Pubkey} {nonce : UInt64}
  {change : Change}

theorem takes_executed {p : Posture} (ha : p.admin = admin) (disc : UInt8) :
    Posture.monitor.Takes p [.adminActionExecuted nonce disc admin] p :=
  .one ha.symm rfl

theorem takes_autoPause {events : List ProgramEvent} {p' : Posture}
    (h : Posture.monitor.Takes { w.config.posture with paused := true } events p') :
    Posture.monitor.Takes w.config.posture (autoPause now admin w ++ events) p' := by
  cases hp : w.config.paused with
  | false =>
    rw [autoPause_eq hp]
    exact .cons trivial h
  | true =>
    have hpaused : { w.config.posture with paused := true } = w.config.posture := by
      simp only [ConfigAccount.posture, hp]
    rw [hpaused] at h
    rw [autoPause, hp]
    exact h

theorem takes_switch {o : Option Bool} (ha : w.config.admin = admin)
    (hopen : o = some true → w.config.paused = false) :
    Posture.monitor.Takes w.config.posture (redemptionsSwitch o admin w)
      { w.config.posture with redemptionsEnabled := o.getD w.config.redemptionsEnabled } := by
  cases o with
  | none => exact Monitor.takes_nil.2 rfl
  | some v => exact .one ⟨rfl, fun hv => hopen (hv ▸ rfl), ha.symm⟩ rfl

/-- The events of an executed change take the posture before it to the one it leaves. -/
theorem takes_applied (ha : w.config.admin = admin) (h : Applied rt recipientAta w change w₁) :
    Posture.monitor.Takes w.config.posture (changeEvents nonce now admin w change)
      w₁.config.posture := by
  cases h with
  | premiumMint | premiumRedeem | treasuryFloat | adminTimelock => exact takes_executed ha _
  | withdrawUsdc _ _ _ _ unpaused => exact .cons ha.symm (.one unpaused rfl)
  | oracleGuards | pythFeed => exact takes_autoPause (takes_executed ha _)
  | metadata => exact .cons trivial (takes_executed ha _)
  | complianceMode changed => exact takes_autoPause (.cons ⟨changed, rfl⟩ (takes_executed ha _))
  | redeemLimits unpaused =>
    exact (takes_switch ha fun _ => unpaused).append _ (takes_executed ha _)
  | publicMint unpaused closed =>
    refine .cons ⟨closed.symm, nofun, fun _ => unpaused, ha.symm⟩ (takes_executed ha _)
  | inventoryWallet unpaused _ changed =>
    exact .cons ⟨rfl, changed, unpaused, ha.symm⟩ (takes_executed ha _)

end Changes

section Steps

variable {rt : Runtime} {w w' : World} {now : ℤ} {signer : Pubkey} {ix : Instruction}

theorem takes_effect (h : Effect rt now signer w ix w') :
    ∃ events, emitted rt now signer w w' ix = .ok events ∧
      Posture.monitor.Takes w.config.posture events w'.config.posture := by
  cases h with
  | mintSilv minted =>
    obtain ⟨bps, he⟩ := minted.events
    exact ⟨_, he, .one ⟨minted.unpaused, minted.opened⟩ rfl⟩
  | redeemSilv redeemed =>
    obtain ⟨bps, he⟩ := redeemed.events
    exact ⟨_, he, .one ⟨redeemed.unpaused, redeemed.enabled⟩ rfl⟩
  | depositUsdc found _ _ _ moved post credited =>
    exact ⟨_, depositEvents_ok found moved post credited, .one trivial rfl⟩
  | setFeeExempt admin => exact ⟨_, rfl, .one (.symm admin) rfl⟩
  | removeFeeExempt admin found =>
    exact ⟨_, removeFeeExemptEvents_ok found, .one (.symm admin) rfl⟩
  | withdrawFees admin swept =>
    obtain ⟨owner, remaining, -, he⟩ := @Swept.events _ now _ _ _ _ signer swept
    exact ⟨_, he, .one ⟨swept.unpaused, admin.symm⟩ rfl⟩
  | setFeeRoutingEnabled admin changed => exact ⟨_, rfl, .one ⟨changed, admin.symm⟩ rfl⟩
  | setKycOperator admin valid =>
    simp only [validateKycOperatorAssignment, bind_ok, require_ok, exists_unit] at valid
    exact ⟨_, rfl, .one ⟨rfl, valid.1, admin.symm⟩ rfl⟩
  | setKycScope admin _ changed => exact ⟨_, rfl, .one ⟨rfl, changed, admin.symm⟩ rfl⟩
  | attestKyc attestor => exact ⟨_, rfl, .one attestor rfl⟩
  | revokeKyc revoker _ _ resolved =>
    rcases @revokeKycEvents_ok _ now _ _ _ _ resolved with ⟨hs, he⟩ | ⟨hs, ha, he⟩
    · refine ⟨_, he, .one revoker ?_⟩
      simp only [Posture.monitor_read, Posture.read, ConfigAccount.posture, hs]
    · exact ⟨_, he, .cons ⟨rfl, hs, ha⟩ (.one (.inr ha) rfl)⟩
  | pause => exact ⟨_, rfl, .one trivial rfl⟩
  | unpause => exact ⟨_, rfl, .one trivial rfl⟩
  | setMaxSilvSupply admin _ lowered covers =>
    exact ⟨_, rfl, .one ⟨rfl, lowered, covers, admin.symm⟩ rfl⟩
  | setPublicMintEnabled admin opened =>
    exact ⟨_, rfl, .one ⟨rfl, by rw [opened]; decide, nofun, admin.symm⟩ rfl⟩
  | setRedemptionsEnabled admin => exact ⟨_, rfl, .one ⟨rfl, nofun, admin.symm⟩ rfl⟩
  | setMinOperationUsdc admin _ changed => exact ⟨_, rfl, .one ⟨rfl, changed, admin.symm⟩ rfl⟩
  | @emergencyTightenRedeemLimits args _ admin _ _ tighten =>
    have hclose : args.redemptionsEnabled ≠ some true := by
      simp only [RedeemLimitsArgs.allTighten, Bool.and_eq_true, decide_eq_true_eq] at tighten
      exact tighten.2
    refine ⟨_, rfl, (takes_switch admin fun ho => absurd ho hclose).append _ ?_⟩
    exact .one (.symm admin) rfl
  | adminPremint admin _ _ _ unpaused _ _ _ post cap =>
    exact ⟨_, premintEvents_ok post, .one ⟨unpaused, rfl, cap, admin.symm⟩ rfl⟩
  | addGuardian _ notAdmin notPending => exact ⟨_, rfl, .one ⟨notAdmin, notPending⟩ rfl⟩
  | removeGuardian | finalizeGuardianRemoval =>
    exact ⟨_, guardianEvents_ok (Finmap.lookup_insert _), .one (by trivial) rfl⟩
  | cancelGuardianRemoval => exact ⟨_, rfl, .one trivial rfl⟩
  | proposeAdminTransfer _ _ _ changed _ expiry =>
    refine ⟨_, rfl, .one ⟨rfl, changed, ?_⟩ rfl⟩
    rw [expiry]
    exact lt_add_of_pos_right _ (by decide)
  | acceptAdminTransfer pending => exact ⟨_, rfl, .one ⟨rfl, pending⟩ rfl⟩
  | cancelAdminTransfer => exact ⟨_, rfl, .one rfl rfl⟩
  | cancelTimelockedAction => exact ⟨_, rfl, .one trivial rfl⟩
  | propose queued =>
    refine ⟨_, proposeEvents_ok queued rfl, .cons queued.admin.symm ?_⟩
    split_ifs
    · exact .one trivial rfl
    · exact Monitor.takes_nil.2 rfl
  | @execute k nonce _ ata _ change w₁ timelock decoded _ applied =>
    exact ⟨_, executeEvents_ok timelock decoded,
      @takes_applied rt w w₁ now signer ata nonce change timelock.admin applied⟩

theorem takes_step {e : Event} (h : Step rt w e w') :
    Posture.monitor.Takes w.config.posture (eventsAt rt ⟨w, e, w'⟩) w'.config.posture := by
  rcases step_cases h with ⟨c, rfl, -, he⟩ | ⟨rfl, he⟩
  · obtain ⟨events, hemit, htakes⟩ := takes_effect he
    rwa [eventsAt_call hemit]
  · exact Monitor.takes_nil.2 (by rw [he.config])

end Steps

/-- Over every run the events replay to the posture of its last state, and each event is true of
the posture that the ones before it replay to. -/
theorem posture_replay {rt : Runtime} {w₀ w : World} {es : List Entry} (run : Run rt w₀ es w) :
    Posture.monitor.replay w₀.config.posture (journal (eventsAt rt) es) = w.config.posture ∧
    ∀ before event after, journal (eventsAt rt) es = before ++ event :: after →
      (Posture.monitor.replay w₀.config.posture before).Agrees event := by
  have htakes : Posture.monitor.Takes w₀.config.posture (journal (eventsAt rt) es)
      w.config.posture :=
    follows_of_run (I := fun _ => True) (v := fun w => w.config.posture) trivial
      (fun _ _ => trivial) (fun _ hs => takes_step hs) run
  exact htakes

theorem posture_replay_tradeCalls :
    Posture.monitor.replay Reference.start.config.posture
        (journal (eventsAt Reference.runtime)
          (Reference.entries Reference.runtime Reference.start Reference.tradeCalls)) =
      (Reference.final Reference.runtime Reference.start Reference.tradeCalls).config.posture :=
  (posture_replay (Reference.run_of_succeeds (by decide +kernel))).1

end DominionSilver
