import DominionSilver.Proofs.Money
import DominionSilver.Proofs.Supply
import DominionSilver.Sanity.Emitted

/-! The books, kept from the events alone. Every mint, redemption, pre-mint,
deposit, withdrawal and sweep says what it moves, so the vaults and the supply
are what the events add up to, but for what others send to a vault or burn, and
for what a sweep or a withdrawal pays to a vault. None of these lets a vault hold
less, or the supply be more, than the books say. -/

namespace DominionSilver

open Checked Bytes Tokens Journal

structure Books where
  treasury : ℤ
  feeVault : ℤ
  supply : ℤ
deriving DecidableEq

def World.books (rt : Runtime) (w : World) : Books :=
  ⟨w.treasuryBalance, w.feeVaultBalance rt, w.silvMint.supply.toNat⟩

namespace Books

def add (a b : Books) : Books :=
  ⟨a.treasury + b.treasury, a.feeVault + b.feeVault, a.supply + b.supply⟩

def zero : Books := ⟨0, 0, 0⟩

theorem add_zero (a : Books) : a.add zero = a := by
  simp [add, zero]

theorem add_assoc (a b c : Books) : (a.add b).add c = a.add (b.add c) := by
  simp only [add, Int.add_assoc]

/-- A redemption's event gives both legs that the treasury paid. -/
def read (b : Books) : ProgramEvent → Books
  | .mintEvent _ amountUsdc amountSilv _ _ feeUsdc _ =>
      b.add ⟨amountUsdc.toNat - feeUsdc.toNat, feeUsdc.toNat, amountSilv.toNat⟩
  | .redeemEvent _ amountSilv amountUsdc _ _ feeUsdc _ =>
      b.add ⟨-(amountUsdc.toNat + feeUsdc.toNat), feeUsdc.toNat, -amountSilv.toNat⟩
  | .premintEvent _ amount _ _ _ => b.add ⟨0, 0, amount.toNat⟩
  | .treasuryDeposit amount _ _ => b.add ⟨amount.toNat, 0, 0⟩
  | .treasuryWithdraw amount _ _ => b.add ⟨-amount.toNat, 0, 0⟩
  | .feesWithdrawn _ amount _ _ _ => b.add ⟨0, -amount.toNat, 0⟩
  | _ => b

/-- What the events say of balances, beside the amounts they move. -/
def Agrees (b : Books) : ProgramEvent → Prop
  | .mintEvent _ amountUsdc _ _ _ feeUsdc _ => feeUsdc ≤ amountUsdc
  | .premintEvent _ amount supplyPost _ _ => supplyPost.toNat ≤ b.supply + amount.toNat
  | .feesWithdrawn _ amount remaining _ _ => b.feeVault ≤ remaining.toNat + amount.toNat
  | .maxSupplyChanged _ _ liveSupply _ => liveSupply.toNat ≤ b.supply
  | _ => True

def monitor : Monitor Books ProgramEvent := ⟨read, Agrees⟩

theorem ignores_notice {e : ProgramEvent} (h : e.IsNotice) : monitor.Ignores e := by
  intro q
  cases e with
  | paused | redemptionsEnabledChanged | complianceModeChanged | metadataUpdated
  | publicMintEnabledChanged | inventoryWalletChanged => exact ⟨rfl, trivial⟩
  | _ => exact h.elim

end Books

/-- What a step moves without an event that says so: transfers and burns by others, and what a
sweep or a withdrawal pays to a vault. -/
def offBook (rt : Runtime) (r : Entry) : Books :=
  match r.event with
  | .call c => match c.ix with
    | .withdrawFees amount destination =>
        if destination = r.pre.config.usdcTreasury then ⟨amount.toNat, 0, 0⟩ else .zero
    | .execute .withdrawUsdc n _ ata =>
        if ata = r.pre.config.usdcTreasury then ⟨withdrawalAt r.pre n, 0, 0⟩
        else if ata = r.pre.feeVault rt then ⟨0, withdrawalAt r.pre n, 0⟩ else .zero
    | _ => .zero
  | .external => ⟨r.post.treasuryBalance - r.pre.treasuryBalance,
      r.post.feeVaultBalance rt - r.pre.feeVaultBalance rt,
      r.post.silvMint.supply.toNat - r.pre.silvMint.supply.toNat⟩

def offBooks (rt : Runtime) (es : List Entry) : Books :=
  es.foldl (fun b r => b.add (offBook rt r)) .zero

theorem offBooks_snoc (rt : Runtime) (es : List Entry) (r : Entry) :
    offBooks rt (es ++ [r]) = (offBooks rt es).add (offBook rt r) := by
  simp [offBooks]

/-- The vaults hold no less, and the supply is no more. -/
structure Books.Safe (b : Books) : Prop where
  treasury : 0 ≤ b.treasury
  feeVault : 0 ≤ b.feeVault
  supply : b.supply ≤ 0

theorem Books.Safe.zero : Books.Safe .zero := ⟨le_rfl, le_rfl, le_rfl⟩

theorem Books.Safe.add {a b : Books} (ha : a.Safe) (hb : b.Safe) : (a.add b).Safe :=
  ⟨add_nonneg ha.treasury hb.treasury, add_nonneg ha.feeVault hb.feeVault,
    add_nonpos ha.supply hb.supply⟩

section Steps

variable {rt : Runtime} {w w' : World} {e : Event}

theorem offBook_safe (hv : Vaults rt w) (h : Step rt w e w') : (offBook rt ⟨w, e, w'⟩).Safe := by
  cases e with
  | external =>
    have he : External rt w w' := h
    have ht := (he.vaultsKept _ _ hv.isVault_treasury).2
    have hf := (he.vaultsKept _ _ isVault_feeVault).2
    have hs := UInt64.le_iff_toNat_le.1 he.supply
    unfold offBook World.treasuryBalance World.feeVaultBalance World.feeVault
    rw [he.config]
    exact ⟨sub_nonneg.2 (Int.ofNat_le.2 ht), sub_nonneg.2 (Int.ofNat_le.2 hf),
      sub_nonpos.2 (Int.ofNat_le.2 hs)⟩
  | call c =>
    unfold offBook
    simp only
    split
    · split_ifs
      · exact ⟨Int.natCast_nonneg _, le_rfl, le_rfl⟩
      · exact .zero
    · split_ifs
      · exact ⟨Int.natCast_nonneg _, le_rfl, le_rfl⟩
      · exact ⟨le_rfl, Int.natCast_nonneg _, le_rfl⟩
      · exact .zero
    · exact .zero

theorem books_moved {b off : Books} (hb : w.books rt = b.add off) (d o : Books)
    (ht : (w'.treasuryBalance : ℤ) = w.treasuryBalance + d.treasury + o.treasury)
    (hf : (w'.feeVaultBalance rt : ℤ) = w.feeVaultBalance rt + d.feeVault + o.feeVault)
    (hs : (w'.silvMint.supply.toNat : ℤ) = w.silvMint.supply.toNat + d.supply + o.supply) :
    w'.books rt = ((b.add d).add off).add o := by
  obtain ⟨htreasury, hfeeVault, hsupply⟩ := Books.mk.inj hb
  unfold World.books Books.add
  rw [Books.mk.injEq]
  dsimp only
  omega

theorem books_still (hu : w'.usdc = w.usdc)
    (ht : w'.config.usdcTreasury = w.config.usdcTreasury)
    (hm : w'.config.usdcMint = w.config.usdcMint)
    (hs : w'.silvMint.supply = w.silvMint.supply) : w'.books rt = w.books rt := by
  unfold World.books World.treasuryBalance World.feeVaultBalance World.feeVault
  rw [hu, ht, hm, hs]

variable {now : ℤ} {signer : Pubkey} {nonce : UInt64} {accounts : PricedAccounts} {b off : Books}

theorem MintSettled.books {amountUsdc minSilvOut : UInt64} {q : MintQuote}
    (h : MintSettled rt w w' now signer amountUsdc minSilvOut accounts q)
    (hb : w.books rt = b.add off) :
    w'.books rt = ((b.add ⟨amountUsdc.toNat - q.feeRouted.toNat, q.feeRouted.toNat,
      q.silvOut.toNat⟩).add off).add .zero := by
  have hlegs := h.legs
  have htreasury := h.treasury
  have hfeeVault := h.feeVault
  have hsupply := h.supply
  exact books_moved hb _ .zero (by dsimp only [Books.zero]; omega)
    (by dsimp only [Books.zero]; omega) (by dsimp only [Books.zero]; omega)

theorem RedeemSettled.books {amountSilv minUsdcOut : UInt64} {q : RedeemQuote}
    (h : RedeemSettled rt w w' now signer amountSilv minUsdcOut accounts q)
    (hsupply : w'.silvMint.supply.toNat + amountSilv.toNat = w.silvMint.supply.toNat)
    (hb : w.books rt = b.add off) :
    w'.books rt = ((b.add ⟨-(q.toUserUsdc.toNat + q.feeRouted.toNat), q.feeRouted.toNat,
      -amountSilv.toNat⟩).add off).add .zero := by
  have hlegs := h.legs
  have hdebited := h.debited
  have hfeeVault := h.feeVault
  exact books_moved hb _ .zero (by dsimp only [Books.zero]; omega)
    (by dsimp only [Books.zero]; omega) (by dsimp only [Books.zero]; omega)

theorem DepositSettled.books {source : Pubkey} {amount : UInt64}
    (h : DepositSettled rt w w' source amount) (hsupply : w'.silvMint = w.silvMint)
    (hb : w.books rt = b.add off) :
    w'.books rt = ((b.add ⟨amount.toNat, 0, 0⟩).add off).add .zero := by
  have htreasury := h.treasury
  have hfeeVault := h.feeVault
  have hs : w'.silvMint.supply.toNat = w.silvMint.supply.toNat := by rw [hsupply]
  exact books_moved hb _ .zero (by dsimp only [Books.zero]; omega)
    (by dsimp only [Books.zero]; omega) (by dsimp only [Books.zero]; omega)

theorem SweepSettled.books {destination : Pubkey} {amount : UInt64}
    (h : SweepSettled rt w w' destination amount)
    (ht : w'.config.usdcTreasury = w.config.usdcTreasury) (hsupply : w'.silvMint = w.silvMint)
    (hb : w.books rt = b.add off) :
    w'.books rt = ((b.add ⟨0, -amount.toNat, 0⟩).add off).add
      (if destination = w.config.usdcTreasury then ⟨amount.toNat, 0, 0⟩ else .zero) := by
  have hdebited := h.debited
  have htreasury := h.treasury_eq ht
  have hs : w'.silvMint.supply.toNat = w.silvMint.supply.toNat := by rw [hsupply]
  split_ifs at htreasury ⊢
  · exact books_moved hb _ _ (by dsimp only; omega) (by dsimp only; omega) (by dsimp only; omega)
  · exact books_moved hb _ .zero (by dsimp only [Books.zero]; omega)
      (by dsimp only [Books.zero]; omega) (by dsimp only [Books.zero]; omega)

theorem WithdrawalSettled.books {ata recipient : Pubkey} {amount : UInt64} (hv : Vaults rt w)
    (h : WithdrawalSettled rt w w' ata recipient amount)
    (hm : w'.config.usdcMint = w.config.usdcMint)
    (hsupply : w'.silvMint.supply = w.silvMint.supply) (hb : w.books rt = b.add off) :
    w'.books rt = ((b.add ⟨-amount.toNat, 0, 0⟩).add off).add
      (if ata = w.config.usdcTreasury then ⟨amount.toNat, 0, 0⟩
        else if ata = w.feeVault rt then ⟨0, amount.toNat, 0⟩ else .zero) := by
  have hfeeVault := h.feeVault_eq hv hm
  have hs : w'.silvMint.supply.toNat = w.silvMint.supply.toNat := by rw [hsupply]
  by_cases ht : ata = w.config.usdcTreasury
  · have hkept := h.kept ht
    rw [if_neg (ht ▸ hv.apart)] at hfeeVault
    rw [if_pos ht]
    exact books_moved hb _ _ (by dsimp only; omega) (by dsimp only; omega) (by dsimp only; omega)
  · have hdebited := (h.debited ht).1
    rw [if_neg ht]
    split_ifs at hfeeVault ⊢
    · exact books_moved hb _ _ (by dsimp only; omega) (by dsimp only; omega) (by dsimp only; omega)
    · exact books_moved hb _ .zero (by dsimp only [Books.zero]; omega)
        (by dsimp only [Books.zero]; omega) (by dsimp only [Books.zero]; omega)

theorem takes_books {c : Call} (hv : Vaults rt w) (hsign : rt.canSign c.signer = true)
    (h : Effect rt c.now c.signer w c.ix w') (hb : w.books rt = b.add off) (hoff : off.Safe) :
    ∃ events b', emitted rt c.now c.signer w w' c.ix = .ok events ∧
      Books.monitor.Takes b events b' ∧
      w'.books rt = (b'.add off).add (offBook rt ⟨w, .call c, w'⟩) := by
  obtain ⟨now, hnow, signer, ix⟩ := c
  have still := hb.trans (Books.add_zero (b.add off)).symm
  obtain ⟨-, hfeeVault, hsupply⟩ := Books.mk.inj hb
  have hsafe := hoff.feeVault
  have hcapped := hoff.supply
  cases h with
  | mintSilv minted =>
    have hset := minted.settled hv hsign (c := w.config) rfl rfl
    obtain ⟨bps, he⟩ := minted.events
    refine ⟨_, _, he, .one (UInt64.le_iff_toNat_le.2 ?_) rfl,
      (minted.settled hv hsign rfl rfl).books hb⟩
    exact (Nat.le_add_left _ _).trans_eq hset.legs
  | redeemSilv redeemed =>
    obtain ⟨bps, he⟩ := redeemed.events
    exact ⟨_, _, he, .one trivial rfl, (redeemed.settled hv hsign rfl rfl).books
      (rt.tokens.burn_burned redeemed.burned).2.1 hb⟩
  | depositUsdc found _ _ _ moved post credited =>
    exact ⟨_, _, depositEvents_ok found moved post credited, .one trivial rfl,
      (depositSettled hv hsign moved).books rfl hb⟩
  | withdrawFees _ swept =>
    obtain ⟨owner, remaining, hremaining, he⟩ := @Swept.events _ now _ _ _ _ signer swept
    refine ⟨_, _, he, .one ?_ rfl, (swept.settled hv).books rfl rfl hb⟩
    change b.feeVault ≤ remaining.toNat + _
    omega
  | removeFeeExempt _ found => exact ⟨_, _, removeFeeExemptEvents_ok found, .one trivial rfl, still⟩
  | revokeKyc _ _ _ resolved =>
    rcases @revokeKycEvents_ok _ now _ _ _ _ resolved with ⟨-, he⟩ | ⟨-, -, he⟩
    · exact ⟨_, _, he, .one trivial rfl, still⟩
    · exact ⟨_, _, he, .cons trivial (.one trivial rfl), still⟩
  | setMaxSilvSupply =>
    refine ⟨_, _, rfl, .one ?_ rfl, still⟩
    change (w.silvMint.supply.toNat : ℤ) ≤ b.supply
    omega
  | emergencyTightenRedeemLimits =>
    refine ⟨_, _, rfl, .append _ (Monitor.takes_ignored ?_) (.one trivial rfl), still⟩
    exact fun e he => Books.ignores_notice (isNotice_redemptionsSwitch e he)
  | @adminPremint amount _ _ supplyPost _ _ _ _ _ _ _ _ _ _ post _ issued =>
    have hpost := checkedAdd_eq_some.1 post
    have hissued := (rt.tokens.mintTo_issued issued).2.1
    simp only [word_uint64] at hpost
    refine ⟨_, _, premintEvents_ok post, .one ?_ rfl, ?_⟩
    · change (supplyPost.toNat : ℤ) ≤ b.supply + amount.toNat
      omega
    · refine books_moved hb _ .zero ?_ ?_ ?_
      · exact (Int.add_zero _).symm
      · exact (Int.add_zero _).symm
      · dsimp only [Books.zero]
        omega
  | removeGuardian | finalizeGuardianRemoval =>
    exact ⟨_, _, guardianEvents_ok (Finmap.lookup_insert _), .one (by trivial) rfl, still⟩
  | propose queued =>
    refine ⟨_, b, proposeEvents_ok queued rfl, .cons trivial ?_, still⟩
    split_ifs
    · exact .one trivial rfl
    · exact Monitor.takes_nil.2 rfl
  | @execute k nonce rent ata tl change w₁ timelock decoded kind applied =>
    subst kind
    have hsame := supply_of_applied applied
    have ha := applied
    cases applied with
    | @withdrawUsdc amount recipient _ _ usdc =>
      have hamount : withdrawalAt w nonce = amount.toNat := by
        have hdecode : decodeChange .withdrawUsdc tl.actionData =
            some (.withdrawUsdc amount recipient) := decoded
        simp only [withdrawalAt, timelock.found, Option.bind_some, hdecode]
      have hset : WithdrawalSettled rt w (closeTimelock .withdrawUsdc nonce { w with usdc }) ata
          recipient amount := withdrawalSettled_of_applied hv ha rfl rfl rfl
      refine ⟨_, b.add ⟨-amount.toNat, 0, 0⟩, executeEvents_ok timelock decoded,
        .cons trivial (.one trivial rfl), ?_⟩
      have hbooks := hset.books hv rfl hsame hb
      rw [← hamount] at hbooks ⊢
      exact hbooks
    | _ =>
      refine ⟨_, b, executeEvents_ok timelock decoded, takes_change
        (fun e => Books.ignores_notice) (.one trivial rfl) fun _ _ hchange => ?_,
        Eq.trans ?_ still⟩
      · cases hchange
      · exact books_still rfl rfl rfl hsame
  | _ => exact ⟨_, _, rfl, .one trivial rfl, still⟩

theorem books_step (hv : Vaults rt w) (h : Step rt w e w') (hb : w.books rt = b.add off)
    (hoff : off.Safe) : ∃ b', Books.monitor.Takes b (eventsAt rt ⟨w, e, w'⟩) b' ∧
      w'.books rt = b'.add (off.add (offBook rt ⟨w, e, w'⟩)) := by
  simp only [← Books.add_assoc]
  rcases step_cases h with ⟨c, rfl, hs, he⟩ | ⟨rfl, he⟩
  · obtain ⟨events, b', hemit, htakes, hbooks⟩ := takes_books hv hs he hb hoff
    exact ⟨b', by rwa [eventsAt_call hemit], hbooks⟩
  · refine ⟨b, Monitor.takes_nil.2 rfl, ?_⟩
    obtain ⟨ht, hf, hs⟩ := Books.mk.inj hb
    unfold offBook World.books Books.add
    rw [Books.mk.injEq]
    dsimp only
    omega

end Steps

/-- After every run from the deployment on the vaults and the supply are what the events add up to
and what was moved off the books, and the latter never leaves a vault with less or the supply at
more. Each event is true of the books that the ones before it leave. -/
theorem books_replay {rt : Runtime} {now₀ : ℤ} {w₀ w : World} {es : List Entry}
    (h₀ : Initialized rt now₀ w₀) (run : Run rt w₀ es w) :
    w.books rt = (Books.monitor.replay (w₀.books rt) (journal (eventsAt rt) es)).add
        (offBooks rt es) ∧
      (offBooks rt es).Safe ∧
      ∀ before event after, journal (eventsAt rt) es = before ++ event :: after →
        (Books.monitor.replay (w₀.books rt) before).Agrees event := by
  obtain ⟨b, ⟨hreplay, hagrees⟩, -, hbooks, hsafe⟩ := takes_of_run
    (R := fun rs w b => Vaults rt w ∧ w.books rt = b.add (offBooks rt rs) ∧ (offBooks rt rs).Safe)
    (m := Books.monitor)
    ⟨vaults_initial h₀, (Books.add_zero _).symm, .zero⟩
    (fun ⟨hv, hb, hoff⟩ hs => by
      obtain ⟨b', htakes, hbooks⟩ := books_step hv hs hb hoff
      rw [offBooks_snoc]
      exact ⟨b', htakes, hv.step hs, hbooks, hoff.add (offBook_safe hv hs)⟩) run
  exact ⟨hreplay ▸ hbooks, hsafe, hagrees⟩

theorem books_replay_tradeCalls :
    (Reference.final Reference.runtime Reference.start Reference.tradeCalls).books
        Reference.runtime =
      (Books.monitor.replay (Reference.start.books Reference.runtime)
        (journal (eventsAt Reference.runtime)
          (Reference.entries Reference.runtime Reference.start Reference.tradeCalls))).add
        (offBooks Reference.runtime
          (Reference.entries Reference.runtime Reference.start Reference.tradeCalls)) :=
  (books_replay Reference.initialized_start
    (Reference.run_of_succeeds (by decide +kernel))).1

end DominionSilver
