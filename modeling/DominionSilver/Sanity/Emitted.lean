import DominionSilver.Sanity.Inversion
import DominionSilver.Spec.Events

/-! What a successful instruction emits. Every handler that succeeds gets to its
events, and what they say is what the handler found. -/

namespace DominionSilver

open Checked Bytes Tokens Journal

section Priced

variable {rt : Runtime} {now : ℤ} {user : Pubkey} {w : World} {accounts : PricedAccounts}
  {price : LazerPriceResult} {lastPrice : ℕ} {lastAt : ℤ} {usdc silv : Ledger Pubkey}
  {silvMint : Mint Pubkey}

theorem Minted.events {amountUsdc minSilvOut : UInt64} {q : MintQuote}
    (h : Minted rt amountUsdc minSilvOut accounts now user w price q lastPrice lastAt usdc silvMint
      silv) :
    ∃ premiumBps, mintEvents rt amountUsdc minSilvOut accounts now user w =
      .ok [.mintEvent user amountUsdc q.silvOut price.normalizedPriceScaled premiumBps q.feeRouted
        now] := by
  obtain ⟨exempt, hexempt, hq⟩ := h.quote
  refine ⟨effectivePremiumBps w.config.premiumBpsMint exempt user .mint now, ?_⟩
  simp only [mintEvents, bind_ok, pure_ok]
  exact ⟨exempt, hexempt, price, h.read, q, hq, rfl⟩

theorem Redeemed.events {amountSilv minUsdcOut : UInt64} {q : RedeemQuote}
    (h : Redeemed rt amountSilv minUsdcOut accounts now user w price q lastPrice lastAt usdc
      silvMint silv) :
    ∃ premiumBps, redeemEvents rt amountSilv minUsdcOut accounts now user w =
      .ok [.redeemEvent user amountSilv q.toUserUsdc price.normalizedPriceScaled premiumBps
        q.feeRouted now] := by
  obtain ⟨exempt, treasury, hexempt, hfound, hq⟩ := h.quote
  refine ⟨effectivePremiumBps w.config.premiumBpsRedeem exempt user .redeem now, ?_⟩
  simp only [redeemEvents, bind_ok, existing_ok, pure_ok]
  exact ⟨treasury, hfound, exempt, hexempt, price, h.read, q, hq, rfl⟩

/-- A deposit is announced with the amount asked for. Only a transfer of the treasury to itself
would gain it less, and that gains it nothing. -/
theorem depositEvents_ok {w' : World} {source : Pubkey}
    {treasury treasuryPost : TokenAccount Pubkey}
    {amount : UInt64} (found : w.usdc.lookup w.config.usdcTreasury = some treasury)
    (moved : rt.tokens.transferChecked w.usdc w.config.usdcMint source w.config.usdcTreasury user
      amount w.usdcDecimals = some w'.usdc)
    (post : w'.usdc.lookup w.config.usdcTreasury = some treasuryPost)
    (credited : 0 < saturatingSub treasuryPost.amount treasury.amount) :
    depositEvents now user w w' = .ok [.treasuryDeposit amount user now] := by
  obtain ⟨hmoved, -⟩ := rt.tokens.transfer_moved moved
  have hcredited := UInt64.lt_iff_toNat_lt.1 credited
  have hsub := toNat_saturatingSub treasuryPost.amount treasury.amount
  simp only [word_uint64] at hsub
  have hne : w.config.usdcTreasury ≠ source := by
    rintro rfl
    have hself := hmoved.self
    rw [balance_eq post, balance_eq found] at hself
    rw [hsub, hself] at hcredited
    simp at hcredited
  have hgain := hmoved.at_dst hne
  rw [balance_eq post, balance_eq found] at hgain
  have hdelta : saturatingSub treasuryPost.amount treasury.amount = amount := by
    rw [← UInt64.toNat_inj, hsub]
    omega
  simp only [depositEvents, bind_ok, existing_ok, pure_ok]
  exact ⟨treasury, found, treasuryPost, post, by rw [hdelta]⟩

theorem Swept.events {amount : UInt64} {destination admin : Pubkey}
    (h : Swept rt amount destination w usdc) :
    ∃ owner remaining : _, remaining.toNat + amount.toNat = w.feeVaultBalance rt ∧
      withdrawFeesEvents rt amount destination now admin w =
        .ok [.feesWithdrawn owner amount remaining admin now] := by
  obtain ⟨vault, hvault, howner, hle⟩ := h.feeVault
  obtain ⟨dest, hdest, hmint, -⟩ := h.dest
  refine ⟨dest.owner, saturatingSub vault.amount amount, ?_, ?_⟩
  · have hbalance : w.feeVaultBalance rt = vault.amount.toNat := balance_eq hvault
    have hle := UInt64.le_iff_toNat_le.1 hle
    have hsub := toNat_saturatingSub vault.amount amount
    simp only [word_uint64] at hsub
    rw [hbalance, hsub]
    omega
  · simp only [withdrawFeesEvents, bind_ok, associated_ok, tokenAccount_ok, pure_ok]
    exact ⟨vault, ⟨hvault, howner⟩, dest, ⟨hdest, hmint⟩, rfl⟩

end Priced

section Admin

variable {w w' : World} {now : ℤ} {signer : Pubkey}

theorem premintEvents_ok {amount supplyPost : UInt64}
    (post : checkedAdd w.silvMint.supply amount = some supplyPost) :
    premintEvents amount now signer w =
      .ok [.premintEvent w.config.inventoryWallet amount supplyPost now signer] := by
  simp only [premintEvents, bind_ok, orOverflow_ok, pure_ok]
  exact ⟨_, post, rfl⟩

theorem removeFeeExemptEvents_ok {wallet : Pubkey} {acc : FeeExemptAccount}
    (found : w.feeExempts.lookup wallet = some acc) :
    removeFeeExemptEvents wallet now signer w =
      .ok [.feeExemptRemoved wallet acc.flags signer now] := by
  simp only [removeFeeExemptEvents, bind_ok, existing_ok, pure_ok]
  exact ⟨_, found, rfl⟩

theorem guardianEvents_ok {k : Pubkey} {g : GuardianAccount}
    {event : GuardianAccount → ProgramEvent}
    (found : w'.guardians.lookup k = some g) : guardianEvents k event w' = .ok [event g] := by
  simp only [guardianEvents, bind_ok, existing_ok, pure_ok]
  exact ⟨_, found, rfl⟩

theorem revokeKycEvents_ok {wallet : Pubkey} {allowDisarm : Bool} {outcome : RevocationOutcome}
    (resolved : resolveRevocation w.config.kycScopeFlags w.config.kycAttestationCount
      (signer = w.config.admin) allowDisarm = .ok outcome) :
    (outcome.scopeAfter = w.config.kycScopeFlags ∧
      revokeKycEvents wallet allowDisarm now signer w = .ok [.kycRevoked wallet signer now]) ∨
    (outcome.scopeAfter ≠ w.config.kycScopeFlags ∧ signer = w.config.admin ∧
      revokeKycEvents wallet allowDisarm now signer w =
        .ok [.kycScopeChanged w.config.kycScopeFlags outcome.scopeAfter signer now,
          .kycRevoked wallet signer now]) := by
  have hr := resolved
  simp only [resolveRevocation, bind_ok, orOverflow_ok] at resolved
  obtain ⟨after, -, resolved⟩ := resolved
  simp only [revokeKycEvents, bind_ok, pure_ok]
  split_ifs at resolved with hc
  · obtain rfl := Except.ok.inj resolved
    exact .inl ⟨rfl, _, hr, rfl⟩
  · simp only [bind_ok, require_ok, exists_unit, pure_ok, decide_eq_true_eq] at resolved
    obtain ⟨ha, -, rfl⟩ := resolved
    exact .inr ⟨fun h0 => hc (.inl h0.symm), ha, _, hr, rfl⟩

end Admin

section Execute

/-- The events of an executed change. -/
def changeEvents (nonce : UInt64) (now : ℤ) (admin : Pubkey) (w : World) (change : Change) :
    List ProgramEvent :=
  let executed : ProgramEvent := .adminActionExecuted nonce change.kind.disc admin
  match change with
  | .premiumMint _ | .premiumRedeem _ | .treasuryFloat _ | .adminTimelock _ => [executed]
  | .withdrawUsdc amount recipient => [executed, .treasuryWithdraw amount recipient now]
  | .oracleGuards _ | .pythFeed _ => autoPause now admin w ++ [executed]
  | .metadata args => [.metadataUpdated args.name args.symbol args.uri, executed]
  | .complianceMode newValue =>
      autoPause now admin w ++ [.complianceModeChanged newValue, executed]
  | .redeemLimits args => redemptionsSwitch args.redemptionsEnabled admin w ++ [executed]
  | .publicMint newValue => [.publicMintEnabledChanged (!newValue) newValue admin, executed]
  | .inventoryWallet newWallet =>
      [.inventoryWalletChanged w.config.inventoryWallet newWallet admin, executed]

/-- What an executed change says beside that it is executed. -/
def ProgramEvent.IsNotice : ProgramEvent → Prop
  | .paused .. | .redemptionsEnabledChanged .. | .complianceModeChanged .. | .metadataUpdated ..
  | .publicMintEnabledChanged .. | .inventoryWalletChanged .. => True
  | _ => False

variable {rt : Runtime} {now : ℤ} {signer : Pubkey} {w w' : World}

theorem executeEvents_ok {k : TimelockAction} {nonce : UInt64} {rentRecipient : Pubkey}
    {tl : TimelockQueueAccount} {change : Change}
    (timelock : Opened k nonce now signer rentRecipient w tl)
    (decoded : decodeChange k tl.actionData = some change) :
    executeEvents k nonce now signer w = .ok (changeEvents nonce now signer w change) := by
  simp only [executeEvents, bind_ok, existing_ok]
  refine ⟨tl, timelock.found, ?_⟩
  rw [timelock.disc]
  cases k with
  | setPremiumMint | setPremiumRedeem | setTreasuryFloat | setAdminTimelock | setOracleGuards
  | setPythFeed =>
    obtain ⟨v, -, rfl⟩ := Option.map_eq_some_iff.1 decoded
    rfl
  | withdrawUsdc =>
    obtain ⟨amount, hamount, hd⟩ := Option.bind_eq_some_iff.1 decoded
    obtain ⟨recipient, hrecipient, rfl⟩ := Option.map_eq_some_iff.1 hd
    simp only [withdrawUsdcEvents, bind_ok, decodeWord_ok, orOverflow_ok, pure_ok]
    exact ⟨amount, hamount, recipient, hrecipient, rfl⟩
  | updateMetadata =>
    obtain ⟨args, hargs, rfl⟩ := Option.map_eq_some_iff.1 decoded
    simp only [metadataEvents, bind_ok, decodeArgs_ok, pure_ok]
    exact ⟨args, hargs, rfl⟩
  | setComplianceMode | setPublicMint =>
    obtain rfl := Option.some.inj decoded
    rfl
  | setRedeemLimits =>
    obtain ⟨args, hargs, rfl⟩ := Option.map_eq_some_iff.1 decoded
    simp only [redeemLimitsEvents, bind_ok, decodeArgs_ok, pure_ok]
    exact ⟨args, hargs, rfl⟩
  | setInventoryWallet =>
    obtain ⟨newWallet, hwallet, rfl⟩ := Option.map_eq_some_iff.1 decoded
    simp only [inventoryWalletEvents, bind_ok, okOr_ok, pure_ok]
    exact ⟨newWallet, hwallet, rfl⟩

theorem autoPause_eq (h : w.config.paused = false) :
    autoPause now signer w = [.paused signer now] := by
  rw [autoPause, h]
  rfl

theorem isNotice_autoPause : ∀ e ∈ autoPause now signer w, e.IsNotice := by
  intro e he
  unfold autoPause at he
  split_ifs at he
  · cases he
  · rw [List.mem_singleton.1 he]; trivial

theorem isNotice_redemptionsSwitch {o : Option Bool} :
    ∀ e ∈ redemptionsSwitch o signer w, e.IsNotice := by
  intro e he
  cases o with
  | none => cases he
  | some v => rw [List.mem_singleton.1 he]; trivial

/-- To a monitor that passes over the notices, an executed change is its execution, and for a
withdrawal its payment. -/
theorem takes_change {τ : Type} {m : Monitor τ ProgramEvent} {t t' : τ} {change : Change}
    {nonce : UInt64} (hm : ∀ e : ProgramEvent, e.IsNotice → m.Ignores e)
    (h : m.Takes t [.adminActionExecuted nonce change.kind.disc signer] t')
    (hpaid : ∀ amount recipient, change = .withdrawUsdc amount recipient →
      m.Ignores (.treasuryWithdraw amount recipient now)) :
    m.Takes t (changeEvents nonce now signer w change) t' := by
  cases change with
  | premiumMint | premiumRedeem | treasuryFloat | adminTimelock => exact h
  | withdrawUsdc amount recipient =>
    exact h.append m (.ignore (hpaid _ _ rfl) (Monitor.takes_nil.2 rfl))
  | oracleGuards | pythFeed =>
    exact (Monitor.takes_ignored fun e he => hm e (isNotice_autoPause e he)).append m h
  | metadata | publicMint | inventoryWallet => exact .ignore (hm _ (by trivial)) h
  | complianceMode =>
    exact (Monitor.takes_ignored fun e he => hm e (isNotice_autoPause e he)).append m
      (.ignore (hm _ (by trivial)) h)
  | redeemLimits =>
    exact (Monitor.takes_ignored fun e he => hm e (isNotice_redemptionsSwitch e he)).append m h

/-- The events of a proposal. -/
def proposedEvents (change : Change) (executableAt : ℤ) (admin : Pubkey) (w : World) :
    List ProgramEvent :=
  .adminActionProposed w.config.nextTimelockNonce change.kind.disc executableAt admin ::
    if change.kind = .setPremiumMint then [.mintPausedUntilSet executableAt] else []

theorem proposeEvents_ok {change : Change} {data : List UInt8} {executableAt : ℤ}
    {nextNonce : UInt64} {count : UInt8} {timelocks : Accounts UInt64 TimelockQueueAccount}
    (queued : Queued change now signer w data executableAt nextNonce count)
    (hw : w'.timelocks = timelocks.insert w.config.nextTimelockNonce
      (queuedAccount change now signer w data executableAt)) :
    proposeEvents change signer w w' = .ok (proposedEvents change executableAt signer w) := by
  have hfound : w'.timelocks.lookup w.config.nextTimelockNonce =
      some (queuedAccount change now signer w data executableAt) := by
    rw [hw, Finmap.lookup_insert]
  simp only [proposeEvents, bind_ok, existing_ok]
  refine ⟨_, hfound, ?_⟩
  cases change <;> rfl

end Execute

section Steps

variable {rt : Runtime} {now : ℤ} {signer : Pubkey} {w w' : World} {ix : Instruction}

theorem exists_emitted (h : Effect rt now signer w ix w') :
    ∃ events, emitted rt now signer w w' ix = .ok events := by
  cases h with
  | mintSilv minted => exact ⟨_, minted.events.choose_spec⟩
  | redeemSilv redeemed => exact ⟨_, redeemed.events.choose_spec⟩
  | depositUsdc found _ _ _ moved post credited =>
    exact ⟨_, depositEvents_ok found moved post credited⟩
  | withdrawFees _ swept =>
    obtain ⟨owner, remaining, -, he⟩ := @Swept.events _ now _ _ _ _ signer swept
    exact ⟨_, he⟩
  | removeFeeExempt _ found => exact ⟨_, removeFeeExemptEvents_ok found⟩
  | revokeKyc _ _ _ resolved =>
    rcases @revokeKycEvents_ok _ now _ _ _ _ resolved with ⟨-, he⟩ | ⟨-, -, he⟩
    · exact ⟨_, he⟩
    · exact ⟨_, he⟩
  | adminPremint _ _ _ _ _ _ _ _ post => exact ⟨_, premintEvents_ok post⟩
  | removeGuardian | finalizeGuardianRemoval =>
    exact ⟨_, guardianEvents_ok (Finmap.lookup_insert _)⟩
  | propose queued => exact ⟨_, proposeEvents_ok queued rfl⟩
  | execute timelock decoded => exact ⟨_, executeEvents_ok timelock decoded⟩
  | _ => exact ⟨_, rfl⟩

theorem execLogged_iff {c : Call} :
    (∃ events, execLogged rt c w = .ok (w', events)) ↔ exec rt c w = .ok w' := by
  simp only [execLogged, bind_ok, pure_ok, Prod.mk.injEq]
  constructor
  · rintro ⟨events, v, hv, _, -, rfl, -⟩
    exact hv
  · intro h
    obtain ⟨events, he⟩ := exists_emitted (effect_of_exec h).2
    exact ⟨events, w', h, events, he, rfl, rfl⟩

theorem eventsAt_call {c : Call} {events : List ProgramEvent}
    (h : emitted rt c.now c.signer w w' c.ix = .ok events) :
    eventsAt rt ⟨w, .call c, w'⟩ = events := by
  simp only [eventsAt, h]
  rfl

theorem eventsAt_of_execLogged {c : Call} {events : List ProgramEvent}
    (h : execLogged rt c w = .ok (w', events)) : eventsAt rt ⟨w, .call c, w'⟩ = events := by
  simp only [execLogged, bind_ok, pure_ok, Prod.mk.injEq] at h
  obtain ⟨v, -, es, he, rfl, rfl⟩ := h
  exact eventsAt_call he

end Steps

end DominionSilver
