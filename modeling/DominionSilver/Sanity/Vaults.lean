import DominionSilver.Sanity.Quotes

/-! The two USDC vaults. Their addresses never change, their accounts stay with
their authorities, and nobody else can sign for them, so USDC leaves a vault
only where the program signs the transfer. -/

namespace DominionSilver

open Checked Bytes Tokens

/-- The treasury is where it was deployed, and both vaults belong to their authorities alone. -/
structure Vaults (rt : Runtime) (w : World) : Prop where
  treasury : w.config.usdcTreasury = rt.ata rt.treasuryPda w.config.usdcMint
  sound : VaultsSound rt w.config.usdcMint w.usdc

section Addresses

variable {rt : Runtime} {w w' : World}

theorem Vaults.isVault_treasury (h : Vaults rt w) :
    IsVault rt w.config.usdcMint w.config.usdcTreasury rt.treasuryPda :=
  ⟨h.treasury, .inl rfl⟩

theorem isVault_feeVault : IsVault rt w.config.usdcMint (w.feeVault rt) rt.feeVaultPda :=
  ⟨rfl, .inr rfl⟩

theorem Vaults.apart (h : Vaults rt w) : w.config.usdcTreasury ≠ w.feeVault rt :=
  h.treasury ▸ rt.vaults_apart _ _

theorem Vaults.user_apart (h : Vaults rt w) {user : Pubkey} (hu : rt.canSign user = true) :
    rt.ata user w.config.usdcMint ≠ w.config.usdcTreasury ∧
      rt.ata user w.config.usdcMint ≠ w.feeVault rt :=
  ⟨h.treasury ▸ (rt.user_apart hu _ w.config.usdcMint).1, (rt.user_apart hu _ _).2⟩

theorem VaultsSound.not_mayMove {l : Ledger Pubkey} {m address owner signer : Pubkey}
    (h : VaultsSound rt m l) (hv : IsVault rt m address owner) (hs : rt.canSign signer = true) :
    ¬ MayMove l address signer := by
  rintro ⟨a, ha, hmay⟩
  obtain ⟨rfl, hd⟩ := h _ _ hv a ha
  rcases hmay with rfl | hmay
  · rcases hv.2 with hv | hv
    · rw [hv, rt.treasury_cannot_sign] at hs; cases hs
    · rw [hv, rt.feeVault_cannot_sign] at hs; cases hs
  · rw [hd] at hmay; cases hmay

theorem addresses_of_applied {ata : Pubkey} {change : Change} (h : Applied rt ata w change w') :
    w'.config.usdcTreasury = w.config.usdcTreasury ∧ w'.config.usdcMint = w.config.usdcMint := by
  cases h <;> exact ⟨rfl, rfl⟩

theorem addresses_of_effect {now : ℤ} {signer : Pubkey} {ix : Instruction}
    (h : Effect rt now signer w ix w') :
    w'.config.usdcTreasury = w.config.usdcTreasury ∧ w'.config.usdcMint = w.config.usdcMint := by
  cases h with
  | execute _ _ _ applied =>
    obtain ⟨ht, hm⟩ := addresses_of_applied applied
    exact ⟨ht, hm⟩
  | _ => exact ⟨rfl, rfl⟩

end Addresses

section Holders

variable {rt : Runtime} {m : Pubkey} {l l' : Ledger Pubkey}

theorem VaultsSound.sameHolders (h : VaultsSound rt m l) (hs : SameHolders l l') :
    VaultsSound rt m l' := by
  intro address owner hv a ha
  cases hl : l.lookup address with
  | none => rw [hs.none_new _ hl] at ha; cases ha
  | some b =>
    obtain ⟨ho, hd⟩ := h _ _ hv b hl
    obtain ⟨b', hb', -, ho', hd'⟩ := hs.kept _ b hl
    obtain rfl := Option.some.inj (hb'.symm.trans ha)
    exact ⟨ho'.trans ho, hd'.elim (fun e => e.trans hd) id⟩

theorem VaultsSound.initAssociated {o : Pubkey} (h : VaultsSound rt m l)
    (ho : ∀ owner, IsVault rt m (rt.ata o m) owner → owner = o)
    (hi : initAssociated rt l o m = .ok l') : VaultsSound rt m l' := by
  intro address owner hv a ha
  unfold DominionSilver.initAssociated at hi
  cases hl : l.lookup (rt.ata o m) with
  | none =>
    rw [hl] at hi
    obtain rfl := Except.ok.inj hi
    by_cases hk : address = rt.ata o m
    · subst hk
      rw [Finmap.lookup_insert] at ha
      obtain rfl := Option.some.inj ha
      exact ⟨(ho owner hv).symm, rfl⟩
    · exact h _ _ hv a (by rwa [Finmap.lookup_insert_of_ne _ hk] at ha)
  | some b =>
    rw [hl] at hi
    simp only [bind_ok, constrain_ok, exists_unit, pure_ok] at hi
    rw [← hi.2.2] at ha
    exact h _ _ hv a ha

theorem transferIfPositive_ok {w : World} {src dst authority : Pubkey} {amount : UInt64}
    (h : transferIfPositive rt w l src dst authority amount = .ok l') :
    Moved l l' src dst amount.toNat := by
  unfold transferIfPositive at h
  split_ifs at h with hpos
  · exact (rt.tokens.transfer_moved (cpi_ok.1 h)).1
  · obtain rfl := Except.ok.inj h
    have h0 : amount.toNat = 0 := by
      have := UInt64.le_iff_toNat_le.1 (UInt64.not_lt.1 hpos)
      exact Nat.le_zero.1 this
    rw [h0]
    exact Moved.zero l src dst

end Holders

section Moves

variable {rt : Runtime} {now : ℤ} {user : Pubkey} {w : World} {accounts : PricedAccounts}
  {price : LazerPriceResult} {lastPrice : ℕ} {lastAt : ℤ} {usdc silv : Ledger Pubkey}
  {silvMint : Mint Pubkey}

theorem Minted.moved {amountUsdc minSilvOut : UInt64} {q : MintQuote}
    (h : Minted rt amountUsdc minSilvOut accounts now user w price q lastPrice lastAt usdc silvMint
      silv) :
    ∃ usdc₁, Moved w.usdc usdc₁ (rt.ata user w.config.usdcMint) w.config.usdcTreasury
        q.toTreasury.toNat ∧
      Moved usdc₁ usdc (rt.ata user w.config.usdcMint) (w.feeVault rt) q.feeRouted.toNat := by
  obtain ⟨usdc₁, h1, h2⟩ := h.paid
  exact ⟨usdc₁, (rt.tokens.transfer_moved h1).1, transferIfPositive_ok h2⟩

theorem Redeemed.moved {amountSilv minUsdcOut : UInt64} {q : RedeemQuote}
    (h : Redeemed rt amountSilv minUsdcOut accounts now user w price q lastPrice lastAt usdc
      silvMint silv) :
    ∃ usdc₀ usdc₁, initAssociated rt w.usdc user w.config.usdcMint = .ok usdc₀ ∧
      Moved usdc₀ usdc₁ w.config.usdcTreasury (rt.ata user w.config.usdcMint)
        q.toUserUsdc.toNat ∧
      Moved usdc₁ usdc w.config.usdcTreasury (w.feeVault rt) q.feeRouted.toNat := by
  obtain ⟨usdc₀, usdc₁, h0, h1, h2⟩ := h.paid
  exact ⟨usdc₀, usdc₁, h0, (rt.tokens.transfer_moved h1).1, transferIfPositive_ok h2⟩

end Moves

section Invariant

variable {rt : Runtime} {w w' : World}

theorem vaults_initial {now : ℤ} (h : Initialized rt now w) : Vaults rt w := by
  obtain ⟨args, g, t, m, d⟩ := deployed_of_initialized h
  obtain ⟨usdc, hi, rfl⟩ := d.state
  refine ⟨rfl, d.vaults.initAssociated ?_ hi⟩
  rintro owner ⟨he, rfl | rfl⟩
  · rfl
  · exact absurd he (rt.vaults_apart _ _)

theorem Vaults.effect {now : ℤ} {signer : Pubkey} {ix : Instruction} (hw : Vaults rt w)
    (hs : rt.canSign signer = true) (h : Effect rt now signer w ix w') : Vaults rt w' := by
  obtain ⟨ht, hm⟩ := addresses_of_effect h
  refine ⟨by rw [ht, hm, hw.treasury], hm ▸ ?_⟩
  cases h with
  | mintSilv minted =>
    obtain ⟨usdc₁, h1, h2⟩ := minted.moved
    exact hw.sound.sameHolders (h1.holders.trans h2.holders)
  | redeemSilv redeemed =>
    obtain ⟨usdc₀, usdc₁, h0, h1, h2⟩ := redeemed.moved
    refine (hw.sound.initAssociated ?_ h0).sameHolders (h1.holders.trans h2.holders)
    rintro owner ⟨he, rfl | rfl⟩
    · exact absurd he (rt.user_apart hs _ _).1
    · exact absurd he (rt.user_apart hs _ _).2
  | depositUsdc _ _ _ _ moved =>
    exact hw.sound.sameHolders (rt.tokens.transfer_moved moved).1.holders
  | withdrawFees _ swept =>
    exact hw.sound.sameHolders (rt.tokens.transfer_moved swept.moved).1.holders
  | execute _ _ _ applied =>
    cases applied with
    | withdrawUsdc _ _ _ _ _ _ _ moved =>
      exact hw.sound.sameHolders (rt.tokens.transfer_moved moved).1.holders
    | _ => exact hw.sound
  | _ => exact hw.sound

theorem Vaults.step {e : Event} (hw : Vaults rt w) (h : Step rt w e w') : Vaults rt w' := by
  rcases step_cases h with ⟨c, -, hs, he⟩ | ⟨-, he⟩
  · exact hw.effect hs he
  · exact ⟨he.config ▸ hw.treasury, he.config ▸ he.vaultsSound hw.sound⟩

theorem vaults_of_run {now : ℤ} {w₀ : World} {es : List Entry} (h₀ : Initialized rt now w₀)
    (run : Run rt w₀ es w) : Vaults rt w :=
  run.invariant (vaults_initial h₀) Vaults.step

end Invariant

end DominionSilver
