import DominionSilver.Proofs.Arithmetic
import DominionSilver.Proofs.Cancel
import DominionSilver.Proofs.Fits
import DominionSilver.Proofs.Unblock
import DominionSilver.Spec.Layouts

/-! The program on the bytes of its accounts is the program on the accounts. Every time and every
price that a run stores is in range, so whatever an instruction leaves fits the size its account was
created with, no write-back fails, and the next instruction reads what the last one left. Bytes that
are reserved stay zero, so fields that a later version puts there start out blank. -/

namespace DominionSilver

open Checked Bytes Tokens Codec

section Ranges

/-- The times and the price of the config are in the range of their types. -/
structure ConfigRanges (c : ConfigAccount) : Prop where
  pendingAdminExpiresAt : I64 c.pendingAdminExpiresAt
  lastPriceUpdateAt : I64 c.lastPriceUpdateAt
  instantWindowStart : I64 c.instantWindowStart
  mintPausedUntil : I64 c.mintPausedUntil
  pendingAdminEta : I64 c.pendingAdminEta

/-- So are the times of all other accounts. -/
structure Ranges (w : World) : Prop where
  config : ConfigRanges w.config
  timelocks : ∀ n tl, w.timelocks.lookup n = some tl → I64 tl.scheduledAt ∧ I64 tl.executableAt
  guardians : ∀ k g, w.guardians.lookup k = some g →
    I64 g.addedAt ∧ I64 g.cooldownUntil ∧ I64 g.pendingRemovalAt
  feeExempts : ∀ k e, w.feeExempts.lookup k = some e → I64 e.addedAt ∧ I64 e.expiresAt
  kycs : ∀ k a, w.kycs.lookup k = some a → I64 a.approvedAt

theorem i64_zero : I64 0 := ⟨by norm_num, by norm_num⟩

/-- The times that an instruction works out are in range where it succeeds. -/
def Dated (now : ℤ) (w : World) : Instruction → Prop
  | .removeGuardian _ | .propose _ => I64 (now + w.config.adminTimelockSeconds.toNat)
  | .finalizeGuardianRemoval _ => I64 (now + GUARDIAN_REMOVE_COOLDOWN_SECONDS)
  | .proposeAdminTransfer _ => I64 (now + w.config.adminTimelockSeconds.toNat) ∧
      I64 (now + w.config.adminTimelockSeconds.toNat + PENDING_ADMIN_EXPIRY_SECONDS)
  | _ => True

variable {rt : Runtime} {c : Call} {w w' : World}

theorem dated_of_exec (h : exec rt c w = .ok w') : Dated c.now w c.ix := by
  obtain ⟨now, _, signer, ix⟩ := c
  simp only [exec, bind_ok, constrain_ok, exists_unit] at h
  obtain ⟨-, h⟩ := h
  cases ix with
  | removeGuardian k =>
    simp only [dispatch, removeGuardianHandler, bind_ok, orOverflow_ok, checkedI64_eq_some] at h
    obtain ⟨-, -, -, -, -, -, -, -, -, -, eta, ⟨hrange, -⟩, -⟩ := h
    exact hrange
  | finalizeGuardianRemoval k =>
    simp only [dispatch, finalizeGuardianRemovalHandler, bind_ok, okOr_ok, existing_ok, require_ok,
      exists_unit, checkedI64_eq_some] at h
    obtain ⟨-, -, -, -, -, -, -, -, cooldown, ⟨hrange, -⟩, -⟩ := h
    exact hrange
  | proposeAdminTransfer k =>
    simp only [dispatch, proposeAdminTransferHandler, bind_ok, orOverflow_ok, requireAdmin_ok,
      require_ok, exists_unit, checkedI64_eq_some] at h
    obtain ⟨-, -, -, -, eta, ⟨hdue, rfl⟩, expires, ⟨hlast, -⟩, -⟩ := h
    exact ⟨hdue, hlast⟩
  | propose change => exact due_i64 h
  | _ => trivial

theorem rollBuckets_i64 {now start w : ℤ} {used prev : UInt64} (hnow : I64 now) (hstart : I64 start)
    (hw : 0 ≤ w) : I64 (rollBuckets now start w used prev).1 := by
  unfold rollBuckets
  dsimp only
  split_ifs with h0 h2 h1
  · exact hnow
  · exact hnow
  · have helapsed : w ≤ now - start ∨ w = 0 := by
      unfold saturatingI64 at h1
      omega
    unfold I64 at *
    omega
  · exact hstart

theorem newWindowStart_i64 {now start : ℤ} {w : UInt32} {used prev : UInt64} (hnow : I64 now)
    (hstart : I64 start) : I64 (rollWindow now start w used prev).newWindowStart := by
  unfold rollWindow
  dsimp only
  split_ifs
  · exact hnow
  · exact rollBuckets_i64 hnow hstart (Int.natCast_nonneg _)

theorem recordedPrice_i64 {c : ConfigAccount} {price lastPrice : ℕ} {amount : UInt64}
    {now lastAt : ℤ} (hold : I64 c.lastPriceUpdateAt) (hnow : I64 now)
    (h : recordedPrice c price amount now = (lastPrice, lastAt)) : I64 lastAt := by
  unfold recordedPrice at h
  split_ifs at h
  · exact (Prod.mk.inj h).2 ▸ hnow
  · exact (Prod.mk.inj h).2 ▸ hold

theorem ranges_initial {now : ℤ} (h : Initialized rt now w) : Ranges w := by
  have hnow := h.1
  obtain ⟨args, g, t, m, d⟩ := deployed_of_initialized h
  obtain ⟨usdc, -, rfl⟩ := d.state
  exact {
    config := ⟨i64_zero, i64_zero, i64_zero, i64_zero, i64_zero⟩
    timelocks := fun n tl hl => by simp at hl
    guardians := Accounts.forall_insert (fun k g hl => by simp at hl) ⟨hnow, i64_zero, i64_zero⟩
    feeExempts := fun k e hl => by simp at hl
    kycs := fun k a hl => by simp at hl }

theorem Ranges.exemptionAt (hr : Ranges w) (k : Pubkey) :
    I64 (DominionSilver.exemptionAt w k).addedAt := by
  unfold DominionSilver.exemptionAt
  cases hl : w.feeExempts.lookup k with
  | none => exact i64_zero
  | some e => exact (hr.feeExempts k e hl).1

theorem ranges_of_applied {ata : Pubkey} {w₁ : World} {change : Change} (hr : Ranges w)
    (h : Applied rt ata w change w₁) : Ranges w₁ := by
  cases h with
  | premiumMint => exact { hr with config := { hr.config with mintPausedUntil := i64_zero } }
  | _ => exact { hr with config := { hr.config with } }

theorem Ranges.effect {now : ℤ} {signer : Pubkey} {ix : Instruction} (hnow : I64 now)
    (hr : Ranges w) (hc : Dated now w ix) (h : Effect rt now signer w ix w') : Ranges w' := by
  cases h with
  | mintSilv minted =>
    have hat := recordedPrice_i64 hr.config.lastPriceUpdateAt hnow minted.recorded
    exact { hr with config := { hr.config with lastPriceUpdateAt := hat } }
  | redeemSilv redeemed =>
    obtain ⟨exempt, treasury, -, -, hq⟩ := redeemed.quote
    have hat := recordedPrice_i64 hr.config.lastPriceUpdateAt hnow redeemed.recorded
    have hstart := @newWindowStart_i64 _ _ w.config.instantRedeemWindowSeconds
      w.config.instantUsedUsdc w.config.instantUsedPrevUsdc hnow hr.config.instantWindowStart
    rw [← ((quoteRedeem_ok hq).budget _ rfl).2.1] at hstart
    exact { hr with
      config := { hr.config with lastPriceUpdateAt := hat, instantWindowStart := hstart } }
  | @setFeeExempt wallet flags expiresAt addedAt admin flags_ok future term added =>
    refine { hr with feeExempts := Accounts.forall_insert hr.feeExempts ⟨?_, ?_⟩ }
    · rw [added]
      split_ifs with h0
      · exact hnow
      · exact hr.exemptionAt wallet
    · unfold saturatingI64 at term
      unfold I64 at *
      dsimp only
      omega
  | removeFeeExempt =>
    exact { hr with feeExempts := Accounts.forall_erase hr.feeExempts }
  | attestKyc =>
    exact { hr with
      config := { hr.config with }, kycs := Accounts.forall_insert hr.kycs hnow }
  | revokeKyc =>
    exact { hr with config := { hr.config with }, kycs := Accounts.forall_erase hr.kycs }
  | addGuardian _ _ _ _ _ _ unscheduled =>
    refine { hr with
      config := { hr.config with }
      guardians := Accounts.forall_insert hr.guardians ⟨hnow, i64_zero, ?_⟩ }
    rw [unscheduled]
    exact i64_zero
  | removeGuardian _ found _ _ delay =>
    obtain ⟨hadded, hcool, -⟩ := hr.guardians _ _ found
    exact { hr with
      config := { hr.config with }
      guardians := Accounts.forall_insert hr.guardians ⟨hadded, hcool, delay ▸ hc⟩ }
  | finalizeGuardianRemoval found _ _ _ _ _ _ cooldown =>
    exact { hr with
      config := { hr.config with }
      guardians := Accounts.forall_insert hr.guardians
        ⟨(hr.guardians _ _ found).1, cooldown ▸ hc, i64_zero⟩ }
  | cancelGuardianRemoval found =>
    obtain ⟨hadded, hcool, -⟩ := hr.guardians _ _ found
    exact { hr with
      config := { hr.config with }
      guardians := Accounts.forall_insert hr.guardians ⟨hadded, hcool, i64_zero⟩ }
  | proposeAdminTransfer _ _ _ _ delay expiry =>
    obtain ⟨hdue, hlast⟩ := hc
    subst delay
    exact { hr with config := { hr.config with
      pendingAdminEta := hdue, pendingAdminExpiresAt := expiry ▸ hlast } }
  | acceptAdminTransfer =>
    exact { hr with config := { hr.config with
      pendingAdminExpiresAt := i64_zero, pendingAdminEta := i64_zero } }
  | cancelAdminTransfer =>
    exact { hr with config := { hr.config with
      pendingAdminExpiresAt := i64_zero, pendingAdminEta := i64_zero } }
  | cancelTimelockedAction _ _ _ _ _ _ _ resumed =>
    refine { hr with
      config := { hr.config with mintPausedUntil := ?_ }
      timelocks := Accounts.forall_erase hr.timelocks }
    rw [resumed]
    split_ifs
    · exact i64_zero
    · exact hr.config.mintPausedUntil
  | propose queued repricing =>
    have hdue : I64 (now + w.config.adminTimelockSeconds.toNat) := hc
    rw [← queued.executableAt] at hdue
    refine { hr with
      config := { hr.config with mintPausedUntil := ?_ }
      timelocks := Accounts.forall_insert hr.timelocks ⟨hnow, hdue⟩ }
    rw [repricing]
    split_ifs
    · exact hdue
    · exact hr.config.mintPausedUntil
  | execute _ _ _ applied =>
    have hr₁ := ranges_of_applied hr applied
    exact { hr₁ with
      config := { hr₁.config with }, timelocks := Accounts.forall_erase hr₁.timelocks }
  | _ => exact { hr with config := { hr.config with } }

theorem Ranges.step {e : Event} (hr : Ranges w) (h : Step rt w e w') : Ranges w' := by
  rcases step_cases h with ⟨c, rfl, -, he⟩ | ⟨-, he⟩
  · exact hr.effect c.now_i64 (dated_of_exec h) he
  · exact {
      config := he.config ▸ hr.config
      timelocks := he.timelocks ▸ hr.timelocks
      guardians := he.guardians ▸ hr.guardians
      feeExempts := he.feeExempts ▸ hr.feeExempts
      kycs := he.kycs ▸ hr.kycs }

theorem ranges_of_reachable (h : Reachable rt w) : Ranges w := by
  obtain ⟨now, w₀, es, h₀, run⟩ := h
  exact run.invariant (ranges_initial h₀) Ranges.step

end Ranges

section Sizes

variable {rt : Runtime} {w : World} {inert : Inert}

/-- The fields that types bound take what those allow, each time 8 bytes and the price 16. -/
theorem fits_fields {expires at' start until' eta : ℤ} {price : ℕ} (hexpires : I64 expires)
    (hprice : price < 2 ^ 128) (hat : I64 at') (hstart : I64 start) (huntil : I64 until')
    (heta : I64 eta) (admins : ConfigRecord.Admins) (setup : ConfigRecord.Setup)
    (limits : ConfigRecord.Limits) (usage : ConfigRecord.Usage) (queue : ConfigRecord.Queue)
    (late : ConfigRecord.Launch × ConfigRecord.Carved) :
    Fits 769 ((admins, expires, setup, price, at', limits, start, usage, until', queue, eta, late) :
      ConfigRecord.Fields) := by
  have hqueue := (MaxSize.fits queue).prod ((fits_i64 heta).prod (MaxSize.fits late))
  have husage := (fits_i64 hstart).prod ((MaxSize.fits usage).prod ((fits_i64 huntil).prod hqueue))
  have hlimits := (fits_u128 hprice).prod ((fits_i64 hat).prod ((MaxSize.fits limits).prod husage))
  exact (MaxSize.fits admins).prod ((fits_i64 hexpires).prod ((MaxSize.fits setup).prod hlimits))

theorem fits_config {c : ConfigAccount} (hr : ConfigRanges c)
    (hprice : c.lastRecordedPriceScaled < 2 ^ 128) : Fits 769 (⟨c, inert⟩ : ConfigRecord) :=
  fits_fields hr.pendingAdminExpiresAt hprice hr.lastPriceUpdateAt hr.instantWindowStart
    hr.mintPausedUntil hr.pendingAdminEta _ _ _ _ _ _

theorem fits_guardian {g : GuardianAccount} {version : UInt8} (hadded : I64 g.addedAt)
    (hcool : I64 g.cooldownUntil) (hpending : I64 g.pendingRemovalAt) :
    Fits 58 (⟨g, version⟩ : GuardianRecord) :=
  (MaxSize.fits g.guardian).prod ((fits_i64 hadded).prod ((fits_i64 hcool).prod
    ((fits_i64 hpending).prod (MaxSize.fits (g.selfCancelUsed, version)))))

theorem fits_feeExempt {e : FeeExemptAccount} {version : UInt8} (hadded : I64 e.addedAt)
    (hexpires : I64 e.expiresAt) : Fits 82 (⟨e, version⟩ : FeeExemptRecord) :=
  (MaxSize.fits e.wallet).prod ((MaxSize.fits e.flags).prod ((fits_i64 hadded).prod
    ((MaxSize.fits e.addedBy).prod ((MaxSize.fits version).prod (fits_i64 hexpires)))))

theorem fits_kyc {a : KycAccount} (happroved : I64 a.approvedAt) : Fits 105 a :=
  (MaxSize.fits a.wallet).prod ((fits_i64 happroved).prod
    (MaxSize.fits (a.attestor, a.reference, a.version)))

theorem takes_of_reachable (h : Reachable rt w) {a : Address} {r : a.Body × Block a.reserved}
    (hr : w.record inert a = some r) : a.layout.Takes r := by
  have hranges := ranges_of_reachable h
  cases a with
  | config =>
    obtain rfl := Option.some.inj hr
    have hprice := (metered_of_reachable h).2.recorded
    have hmax : PRICE_FATFINGER_MAX_SCALED.toNat = 200000000000 := rfl
    exact (fits_config hranges.config (by omega)).prod (MaxSize.fits _)
  | timelock n =>
    obtain ⟨tl, hl, rfl⟩ := Option.map_eq_some_iff.1 hr
    obtain ⟨hscheduled, hdue⟩ := hranges.timelocks n tl hl
    obtain ⟨change, hwhole⟩ := queueWhole_of_reachable h n tl hl
    have hopen := ((live_of_reachable h).2 n tl hl).2
    have hexecuted : ∀ t, tl.executedAt = some t → I64 t := fun t ht => by
      rw [hopen] at ht
      cases ht
    exact (fits_timelock hwhole.length hscheduled hdue hexecuted).prod (MaxSize.fits _)
  | guardian k =>
    obtain ⟨g, hl, rfl⟩ := Option.map_eq_some_iff.1 hr
    obtain ⟨hadded, hcool, hpending⟩ := hranges.guardians k g hl
    exact (fits_guardian hadded hcool hpending).prod (MaxSize.fits _)
  | feeExempt k =>
    obtain ⟨e, hl, rfl⟩ := Option.map_eq_some_iff.1 hr
    obtain ⟨hadded, hexpires⟩ := hranges.feeExempts k e hl
    exact (fits_feeExempt hadded hexpires).prod (MaxSize.fits _)
  | kyc k =>
    obtain ⟨a, hl, rfl⟩ := Option.map_eq_some_iff.1 hr
    exact (fits_kyc (hranges.kycs k a hl)).prod (MaxSize.fits _)

end Sizes

section Chains

variable {rt : Runtime} {inert : Inert} {w w' : World} {s s' : Chain} {e : Event}

theorem world_ext (hrecord : ∀ a, w.record inert a = w'.record inert a) (ht : s.SameTokens w)
    (ht' : s.SameTokens w') : w = w' := by
  have hconfig : w.config = w'.config :=
    congrArg (fun r => r.1.config) (Option.some.inj (hrecord .config))
  have htimelocks : w.timelocks = w'.timelocks := Finmap.ext_lookup fun n =>
    Option.map_injective (fun _ _ h => (Prod.mk.inj h).1) (hrecord (.timelock n))
  have hguardians : w.guardians = w'.guardians := Finmap.ext_lookup fun k =>
    Option.map_injective (fun _ _ h => congrArg (fun r => r.1.account) h) (hrecord (.guardian k))
  have hexempts : w.feeExempts = w'.feeExempts := Finmap.ext_lookup fun k =>
    Option.map_injective (fun _ _ h => congrArg (fun r => r.1.account) h) (hrecord (.feeExempt k))
  have hkycs : w.kycs = w'.kycs := Finmap.ext_lookup fun k =>
    Option.map_injective (fun _ _ h => (Prod.mk.inj h).1) (hrecord (.kyc k))
  obtain ⟨hmint, hdecimals, husdc, hsilv⟩ := ht
  obtain ⟨hmint', hdecimals', husdc', hsilv'⟩ := ht'
  cases w
  cases w'
  simp only [World.mk.injEq]
  exact ⟨hconfig, htimelocks, hguardians, hexempts, hkycs, hmint.symm.trans hmint',
    hdecimals.symm.trans hdecimals', husdc.symm.trans husdc', hsilv.symm.trans hsilv'⟩

theorem Chain.Holds.unique (h : s.Holds inert w) (h' : s.Holds inert w') : w = w' :=
  world_ext (fun a => (h.stored a).unique (h'.stored a)) h.tokens h'.tokens

theorem exists_rewrite (h : Reachable rt w) (hs : s.Holds inert w) (hstep : Step rt w e w')
    (a : Address) : ∃ new, a.layout.rewrite (w'.record inert a) (s.data a) = some new :=
  (hs.stored a).exists_rewrite fun _ hr => takes_of_reachable (h.snoc hstep) hr

theorem holds_of_step (hs : s.Holds inert w) (hstep : Chain.Step rt inert s e s') :
    ∃ w', Step rt w e w' ∧ s'.Holds inert w' := by
  obtain ⟨w₁, w', hs₁, hstep, htokens, hdata⟩ := hstep
  obtain rfl := hs₁.unique hs
  refine ⟨w', hstep, fun a => ?_, htokens⟩
  rcases hdata a with ⟨hsame, hrecord⟩ | hwrite
  · rw [hsame, hrecord]
    exact hs₁.stored a
  · exact (hs₁.stored a).rewrite hwrite

theorem exists_step (h : Reachable rt w) (hs : s.Holds inert w) (hstep : Step rt w e w') :
    ∃ s', Chain.Step rt inert s e s' ∧ s'.Holds inert w' := by
  choose data hdata using exists_rewrite h hs hstep
  let s' : Chain := ⟨data, w'.silvMint, w'.usdcDecimals, w'.usdc, w'.silv⟩
  have htokens : s'.SameTokens w' := ⟨rfl, rfl, rfl, rfl⟩
  exact ⟨s', ⟨w, w', hs, hstep, htokens, fun a => .inr (hdata a)⟩,
    fun a => (hs.stored a).rewrite (hdata a), htokens⟩

theorem exists_holds (inert : Inert) (h : Reachable rt w) : ∃ s : Chain, s.Holds inert w ∧
    ∀ a, a.layout.rewrite (w.record inert a) none = some (s.data a) := by
  have hwrite : ∀ a : Address, ∃ new, a.layout.rewrite (w.record inert a) none = some new :=
    fun a => Layout.Stored.absent.exists_rewrite fun _ hr => takes_of_reachable h hr
  choose data hdata using hwrite
  exact ⟨⟨data, w.silvMint, w.usdcDecimals, w.usdc, w.silv⟩,
    ⟨fun a => Layout.Stored.absent.rewrite (hdata a), rfl, rfl, rfl, rfl⟩, hdata⟩

theorem holds_of_run {w₀ : World} {s₀ : Chain} {rs : List (Record Chain Event)}
    (h₀ : Reachable rt w₀) (hs₀ : s₀.Holds inert w₀)
    (run : Trace (Chain.Step rt inert) s₀ rs s) : ∃ es w, Run rt w₀ es w ∧
      es.map Record.event = rs.map Record.event ∧ Reachable rt w ∧ s.Holds inert w := by
  refine run.matched (R := fun s w => Reachable rt w ∧ s.Holds inert w) ⟨h₀, hs₀⟩ ?_
  intro s e s' w ⟨hw, hs⟩ hstep
  obtain ⟨w', hstep, hs'⟩ := holds_of_step hs hstep
  exact ⟨w', hstep, hw.snoc hstep, hs'⟩

/-- The bytes that a deployment writes hold what it leaves. From there every run of the program is a
run on the bytes, every run on the bytes is one of the program, with the same events, and in none
does an account fail to be written back. -/
theorem data_simulates {now : ℤ} {w₀ : World} (h₀ : Initialized rt now w₀) (inert : Inert) :
    ∃ s₀ : Chain, (∀ a, a.layout.rewrite (w₀.record inert a) none = some (s₀.data a)) ∧
      s₀.Holds inert w₀ ∧
      (∀ es w, Run rt w₀ es w → ∃ rs s, Trace (Chain.Step rt inert) s₀ rs s ∧
        rs.map Record.event = es.map Record.event ∧ s.Holds inert w) ∧
      ∀ rs s, Trace (Chain.Step rt inert) s₀ rs s → ∃ es w, Run rt w₀ es w ∧
        es.map Record.event = rs.map Record.event ∧ s.Holds inert w ∧
        ∀ e w', Step rt w e w' → ∀ a : Address, ∃ new,
          a.layout.rewrite (w'.record inert a) (s.data a) = some new := by
  have hreach : Reachable rt w₀ := ⟨now, w₀, [], h₀, .nil⟩
  obtain ⟨s₀, hs₀, hcreated⟩ := exists_holds inert hreach
  refine ⟨s₀, hcreated, hs₀, fun es w run => ?_, fun rs s run => ?_⟩
  · have hmatched : ∃ rs s, Trace (Chain.Step rt inert) s₀ rs s ∧
        rs.map Record.event = es.map Record.event ∧ Reachable rt w ∧ s.Holds inert w := by
      refine Trace.matched (R := fun w s => Reachable rt w ∧ Chain.Holds inert s w) ⟨hreach, hs₀⟩
        ?_ run
      intro w e w' s ⟨hw, hs⟩ hstep
      obtain ⟨s', hstep', hs'⟩ := exists_step hw hs hstep
      exact ⟨s', hstep', hw.snoc hstep, hs'⟩
    obtain ⟨rs, s, run', hevents, -, hs⟩ := hmatched
    exact ⟨rs, s, run', hevents, hs⟩
  · obtain ⟨es, w, run', hevents, hw, hs⟩ := holds_of_run hreach hs₀ run
    exact ⟨es, w, run', hevents, hs, fun e w' hstep a => exists_rewrite hw hs hstep a⟩

/-- What the deployment leaves in the other fields. -/
def deployedInert : Inert :=
  ⟨Reference.key 9, Reference.key 30, Reference.key 31, 0, none, none, Bytes32.zero, 0, false,
    none, false, false, 2⟩

/-- Queueing and executing a float, byte by byte. -/
theorem data_simulates_floatCalls :
    ∃ s₀ rs s, Trace (Chain.Step Reference.runtime deployedInert) s₀ rs s ∧ rs.length = 2 ∧
      s₀.Holds deployedInert Reference.start ∧ s.Holds deployedInert
        (Reference.final Reference.runtime Reference.start Reference.floatCalls) := by
  obtain ⟨s₀, -, hs₀, hforward, -⟩ := data_simulates Reference.initialized_start deployedInert
  have hsucceeds : Reference.succeeds Reference.runtime Reference.start Reference.floatCalls := by
    decide +kernel
  obtain ⟨rs, s, run, hevents, hs⟩ := hforward _ _ (Reference.run_of_succeeds hsucceeds)
  have hlen := congrArg List.length hevents
  rw [List.length_map, List.length_map] at hlen
  exact ⟨s₀, rs, s, run, hlen, hs₀, hs⟩

end Chains

section Upgrades

variable {rt : Runtime} {inert : Inert} {w : World} {s : Chain} {a : Address}

theorem reserved_zero {r : a.Body × Block a.reserved} (h : w.record inert a = some r) :
    r.2 = Block.zero a.reserved := by
  cases a with
  | config =>
    obtain rfl := Option.some.inj h
    rfl
  | _ =>
    obtain ⟨_, -, rfl⟩ := Option.map_eq_some_iff.1 h
    rfl

/-- A later version may give reserved bytes of any account to new fields. Whatever run came before,
it reads the account as it was and the new fields as blank, and whatever they are then set to is
written back and read. -/
theorem reserved_carves {γ : Type} [Codec γ] [MaxSize γ] [Blank γ] {m : ℕ} {now : ℤ} {w₀ : World}
    {s₀ : Chain} {rs : List (Record Chain Event)} {data : List UInt8}
    (hroom : MaxSize.maxSize γ + m ≤ a.reserved) (h₀ : Initialized rt now w₀)
    (hs₀ : s₀.Holds inert w₀) (run : Trace (Chain.Step rt inert) s₀ rs s)
    (hdata : s.data a = some data) :
    ∃ body, a.layout.read data = some (body, Block.zero a.reserved) ∧
      (a.layout.carve γ m).read data = some (body, Blank.blank, Block.zero m) ∧
      ∀ (fields : γ) (rest : Block m), ∃ data',
        (a.layout.carve γ m).write (body, fields, rest) data = some data' ∧
        (a.layout.carve γ m).read data' = some (body, fields, rest) := by
  obtain ⟨es, w, -, -, hw, hs⟩ := holds_of_run ⟨now, w₀, [], h₀, .nil⟩ hs₀ run
  have hstored := hs.stored a
  rw [hdata] at hstored
  generalize hr : w.record inert a = record at hstored
  cases hstored with
  | @present _ r hsize hbegins =>
    obtain ⟨body, block⟩ := r
    obtain rfl : block = Block.zero a.reserved := reserved_zero hr
    have hread := hbegins.read
    refine ⟨body, hread, Layout.read_carve hroom hread, fun fields rest => ?_⟩
    have htakes := Layout.takes_carve hroom (takes_of_reachable hw hr) fields rest
    obtain ⟨data', hwrite⟩ := Layout.exists_write htakes hsize
    exact ⟨data', hwrite, (Layout.begins_write hwrite).1.read⟩

/-- A switch and a nonce, ten bytes of the config's reserve. -/
theorem reserved_carves_config : ∃ (data : List UInt8) (body : ConfigRecord),
    (Address.config.layout.carve (Bool × Option UInt64) 13).read data =
      some (body, (false, none), Block.zero 13) := by
  have hreach : Reachable Reference.runtime Reference.start :=
    ⟨1000, Reference.start, [], Reference.initialized_start, .nil⟩
  obtain ⟨s₀, hs₀, -⟩ := exists_holds deployedInert hreach
  obtain ⟨data, hdata⟩ : ∃ data, s₀.data .config = some data := by
    have hstored := hs₀.stored .config
    generalize s₀.data .config = d at hstored
    cases hstored with
    | present => exact ⟨_, rfl⟩
  have hroom : MaxSize.maxSize (Bool × Option UInt64) + 13 ≤ Address.config.reserved := by decide
  obtain ⟨body, -, hread, -⟩ := reserved_carves hroom Reference.initialized_start hs₀ .nil hdata
  exact ⟨data, body, hread⟩

end Upgrades

end DominionSilver
