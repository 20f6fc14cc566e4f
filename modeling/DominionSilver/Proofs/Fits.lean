import DominionSilver.Proofs.Timelock
import DominionSilver.Spec.Storage

/-! A queued proposal fits its account and decodes. What the propose handlers let
through is written in at most 256 bytes, whatever the characters and whichever
fields are given, so the account takes it, as it is queued and with every mark
that an execute or a cancel may add, and gives back what was proposed. -/

namespace DominionSilver

open Checked Bytes Codec

section Arguments

/-- What a propose checks of the size of its arguments. Only metadata is not bounded by its type. -/
def Change.Validated : Change → Prop
  | metadata args => validateMetadataArgs args = .ok ()
  | _ => True

theorem OracleGuardsArgs.fits (args : OracleGuardsArgs) : Fits 46 args :=
  MaxSize.fits (args.staleness, args.confBps, args.minPriceScaled, args.maxPriceScaled,
    args.maxDeltaBps, args.decaySeconds, args.dustFilterMinUsdc, args.minPublishers)

theorem RedeemLimitsArgs.fits (args : RedeemLimitsArgs) : Fits 30 args :=
  MaxSize.fits (args.instantRedeemBudgetUsdc, args.instantRedeemWindowSeconds,
    args.largeRedeemThresholdUsdc, args.redeemQueueDelaySeconds, args.redemptionsEnabled)

/-- A validated field is written within its cap, the number of its bytes and the byte of the
option. -/
theorem fits_metadataField {field : Option String} {max : ℕ} {u : Unit} (hmax : max < 2 ^ 32)
    (h : validateMetadataField field max = .ok u) : Fits (1 + (4 + max)) field := by
  simp only [validateMetadataField, bind_ok, requireSome_ok, exists_unit] at h
  exact fits_option fun s hs => fits_string (h.2 s hs) hmax

theorem MetadataArgs.fits {args : MetadataArgs} (h : validateMetadataArgs args = .ok ()) :
    Fits 237 args := by
  simp only [validateMetadataArgs, bind_ok, require_ok, exists_unit] at h
  obtain ⟨-, hname, hsymbol, huri⟩ := h
  have hname := fits_metadataField (by norm_num) hname
  have hsymbol := fits_metadataField (by norm_num) hsymbol
  have huri := fits_metadataField (by norm_num) huri
  exact hname.prod (hsymbol.prod huri)

theorem serializeArgs_of_fits {α : Type} [Codec α] {args : α} {n : ℕ} (e : DominionError)
    (h : Fits n args) (hn : n ≤ MAX_ACTION_DATA_BYTES) :
    ∃ data, serializeArgs args e = .ok data := by
  obtain ⟨data, hser, hlen⟩ := h.mono hn
  exact ⟨data, serializeArgs_ok.2 ⟨hser, hlen⟩⟩

variable {change : Change}

theorem encode_of_validated (h : change.Validated) : ∃ data, change.encode = .ok data := by
  cases change with
  | oracleGuards args => exact serializeArgs_of_fits _ args.fits (by norm_num)
  | redeemLimits args => exact serializeArgs_of_fits _ args.fits (by norm_num)
  | metadata args => exact serializeArgs_of_fits _ (MetadataArgs.fits h) (by norm_num)
  | _ => exact ⟨_, rfl⟩

theorem encode_ne_error (hv : change.Validated) {e : Error} : change.encode ≠ .error e := by
  obtain ⟨data, h⟩ := encode_of_validated hv
  rw [h]
  exact nofun

theorem length_encode {data : List UInt8} (h : change.encode = .ok data) :
    data.length ≤ MAX_ACTION_DATA_BYTES := by
  cases change with
  | oracleGuards args => exact (serializeArgs_ok.1 h).2
  | redeemLimits args => exact (serializeArgs_ok.1 h).2
  | metadata args => exact (serializeArgs_ok.1 h).2
  | withdrawUsdc amount recipient =>
    obtain rfl := Except.ok.inj h
    have hl : (toLEBytes amount).length = 8 := length_toLEBytes amount
    rw [List.length_append, hl, recipient.size]
    norm_num
  | inventoryWallet newWallet =>
    obtain rfl := Except.ok.inj h
    rw [newWallet.size]
    norm_num
  | complianceMode newValue =>
    obtain rfl := Except.ok.inj h
    norm_num
  | publicMint newValue =>
    obtain rfl := Except.ok.inj h
    norm_num
  | _ =>
    obtain rfl := Except.ok.inj h
    rw [length_toLEBytes]
    decide

end Arguments

section Refusals

/-- The errors of the serializer and of the length guards. -/
def DataError (d : DominionError) : Prop :=
  d = .serializationFailure ∨ d = .malformedActionData ∨ d = .metadataFieldTooLong

variable {change : Change} {now : ℤ} {admin : Pubkey} {w : World} {d : DominionError}

theorem propose_error {check : ConfigAccount → Result Unit} (hd : DataError d)
    (h : propose change check now admin w = .error (.dominion d)) :
    check w.config = .error (.dominion d) ∨
      check w.config = .ok () ∧ change.encode = .error (.dominion d) := by
  have hactive : .proposalAlreadyActive ≠ d := by rcases hd with rfl | rfl | rfl <;> decide
  have hroom : .tooManyActiveProposals ≠ d := by rcases hd with rfl | rfl | rfl <;> decide
  have hrange : .arithmeticOverflow ≠ d := by rcases hd with rfl | rfl | rfl <;> decide
  simp only [propose, requireAdmin, constrain, bind_error, guardOr_error, reduceCtorEq, and_false,
    false_or, require_error, orOverflow, okOr_error, Error.dominion.injEq, exists_unit, pure,
    Except.pure, hactive, hroom, hrange, or_false, exists_const] at h
  obtain ⟨-, -, h | ⟨hc, -, -, -, -, h⟩⟩ := h
  · exact .inl h
  · exact .inr ⟨hc, h⟩

/-- Where a propose ends with one of these errors, it is the validation of metadata that does. -/
theorem metadata_of_dataError (hd : DataError d)
    (h : proposeHandler change now admin w = .error (.dominion d)) :
    ∃ args, change = .metadata args ∧ validateMetadataArgs args = .error (.dominion d) := by
  cases change with
  | metadata args =>
    simp only [proposeHandler, proposeUpdateMetadataHandler] at h
    rcases propose_error hd h with h | ⟨hc, h⟩
    · exact ⟨args, rfl, h⟩
    · have hv : (Change.metadata args).Validated := hc
      exact absurd h (encode_ne_error hv)
  | premiumMint newBps =>
    simp only [proposeHandler, proposeSetPremiumMintHandler, bind_error, pure, Except.pure,
      reduceCtorEq, and_false, exists_false, or_false] at h
    rcases propose_error hd h with h | ⟨-, h⟩
    · rcases hd with rfl | rfl | rfl <;> simp [bind_error] at h
    · cases h
  | _ =>
    simp only [proposeHandler, proposeSetPremiumRedeemHandler, proposeWithdrawUsdcHandler,
      proposeSetPublicMintHandler, proposeSetInventoryWalletHandler,
      proposeSetComplianceModeHandler, proposeSetOracleGuardsHandler,
      proposeSetRedeemLimitsHandler, proposeSetTreasuryMinFloatHandler,
      proposeSetAdminTimelockHandler, proposeSetPythFeedHandler] at h
    rcases propose_error hd h with h | ⟨-, h⟩
    · rcases hd with rfl | rfl | rfl <;>
        simp [bind_error, requireSome_error, RedeemLimitsArgs.validateCeilings] at h
    · refine absurd h (encode_ne_error ?_)
      trivial

end Refusals

section Account

/-- An account's data of the size allocated takes `tl`, and `tl` is read back from it. -/
def Storable (tl : TimelockQueueAccount) : Prop :=
  ∀ data : List UInt8, data.length = TimelockQueueAccount.SIZE → ∃ data',
    tl.trySerialize data = some data' ∧ data'.length = TimelockQueueAccount.SIZE ∧
      TimelockQueueAccount.tryDeserialize data' = some tl

variable {tl : TimelockQueueAccount}

theorem fits_timelock (hdata : tl.actionData.length ≤ MAX_ACTION_DATA_BYTES)
    (hscheduled : I64 tl.scheduledAt) (hdue : I64 tl.executableAt)
    (hexecuted : ∀ t, tl.executedAt = some t → I64 t) :
    Fits (TimelockQueueAccount.SIZE - 8) tl := by
  have htimes := (fits_i64 hdue).prod ((fits_option fun t ht => fits_i64 (hexecuted t ht)).prod
    (MaxSize.fits (tl.cancelled, tl.proposer, tl.rentPayer)))
  exact (fits_word tl.nonce).prod ((fits_word tl.actionDisc).prod
    ((fits_bytes hdata (by norm_num)).prod ((fits_i64 hscheduled).prod htimes)))

theorem storable_of_fits (h : Fits (TimelockQueueAccount.SIZE - 8) tl) : Storable tl := by
  obtain ⟨bytes, hser, hlen⟩ := h
  intro data hdata
  have hdisc : TimelockQueueAccount.DISCRIMINATOR.length = 8 := rfl
  have hsize : TimelockQueueAccount.SIZE = 367 := rfl
  have hroom : (TimelockQueueAccount.DISCRIMINATOR ++ bytes).length ≤ data.length := by
    rw [List.length_append, hdisc]
    omega
  obtain ⟨rest, hwrite, hrest⟩ := overwrite_eq hroom
  refine ⟨_, ?_, hrest.trans hdata, ?_⟩
  · rw [TimelockQueueAccount.trySerialize, hser]
    exact hwrite
  · rw [TimelockQueueAccount.tryDeserialize, List.append_assoc, List.take_left' hdisc, if_pos rfl,
      List.drop_left' hdisc, de_ser tl bytes rest hser]
    rfl

end Account

/-- `tl`'s account fits whatever is marked on it, and its `action_data` holds `change`. -/
structure Whole (change : Change) (tl : TimelockQueueAccount) : Prop where
  encoded : change.encode = .ok tl.actionData
  length : tl.actionData.length ≤ MAX_ACTION_DATA_BYTES
  stored : ∀ executedAt cancelled, (∀ t, executedAt = some t → I64 t) →
    Storable { tl with executedAt := executedAt, cancelled := cancelled }
  decoded : decodeChange change.kind tl.actionData = some change
  oracleGuards : ∀ args, change = .oracleGuards args →
    tryFromSlice OracleGuardsArgs tl.actionData = some args
  redeemLimits : ∀ args, change = .redeemLimits args →
    tryFromSlice RedeemLimitsArgs tl.actionData = some args
  metadata : ∀ args, change = .metadata args →
    tryFromSlice MetadataArgs tl.actionData = some args

theorem whole_of_encode {change : Change} {tl : TimelockQueueAccount}
    (he : change.encode = .ok tl.actionData) (hscheduled : I64 tl.scheduledAt)
    (hdue : I64 tl.executableAt) : Whole change tl where
  encoded := he
  length := length_encode he
  stored executedAt cancelled hexecuted :=
    storable_of_fits (fits_timelock (length_encode he) hscheduled hdue hexecuted)
  decoded := decodeChange_encode he
  oracleGuards args h := by subst h; exact tryFromSlice_ser (serializeArgs_ok.1 he).1
  redeemLimits args h := by subst h; exact tryFromSlice_ser (serializeArgs_ok.1 he).1
  metadata args h := by subst h; exact tryFromSlice_ser (serializeArgs_ok.1 he).1

section Proposals

variable {change : Change} {now : ℤ} {admin : Pubkey} {w w' : World}

theorem due_i64_of_propose {check : ConfigAccount → Result Unit}
    (h : propose change check now admin w = .ok w') :
    I64 (now + w.config.adminTimelockSeconds.toNat) := by
  simp only [propose, bind_ok, orOverflow_ok, checkedI64_eq_some] at h
  obtain ⟨-, -, -, -, -, -, -, -, -, -, eta, ⟨hrange, -⟩, -⟩ := h
  exact hrange

theorem due_i64 (h : proposeHandler change now admin w = .ok w') :
    I64 (now + w.config.adminTimelockSeconds.toNat) := by
  by_cases hk : change.kind = .setPremiumMint
  · obtain ⟨newBps, rfl⟩ := exists_premiumMint hk
    simp only [proposeHandler, proposeSetPremiumMintHandler, bind_ok] at h
    obtain ⟨w₁, h, -⟩ := h
    exact due_i64_of_propose h
  · obtain ⟨check, he, -⟩ := proposeHandler_eq hk
    rw [he] at h
    exact due_i64_of_propose h

theorem whole_queued (hnow : I64 now) (h : proposeHandler change now admin w = .ok w') :
    ∃ tl, w'.timelocks = w.timelocks.insert w.config.nextTimelockNonce tl ∧ Whole change tl := by
  have hdue := due_i64 h
  obtain ⟨data, eta, next, count, until', queued, -, -, rfl⟩ := proposeHandler_ok h
  rw [← queued.executableAt] at hdue
  exact ⟨_, rfl, whole_of_encode queued.encode hnow hdue⟩

end Proposals

section Runs

variable {rt : Runtime} {c : Call} {w w' : World} {change : Change} {n : UInt64}
  {tl : TimelockQueueAccount}

theorem whole_of_exec (hix : c.ix = .propose change) (h : exec rt c w = .ok w') :
    ∃ tl, w'.timelocks = w.timelocks.insert w.config.nextTimelockNonce tl ∧ Whole change tl := by
  simp only [exec, hix, dispatch, bind_ok, exists_unit] at h
  exact whole_queued c.now_i64 h.2

theorem timelock_of_effect {now : ℤ} {signer : Pubkey} {ix : Instruction}
    (hix : ∀ change, ix ≠ .propose change) (h : Effect rt now signer w ix w')
    (hl : w'.timelocks.lookup n = some tl) : w.timelocks.lookup n = some tl := by
  cases h with
  | propose => exact absurd rfl (hix _)
  | execute _ _ _ applied =>
    rw [closeTimelock, (queue_of_applied applied).1] at hl
    exact (Accounts.lookup_of_erase hl).2
  | cancelTimelockedAction => exact (Accounts.lookup_of_erase hl).2
  | _ => exact hl

def QueueWhole (w : World) : Prop :=
  ∀ n tl, w.timelocks.lookup n = some tl → ∃ change, Whole change tl

theorem QueueWhole.step {e : Event} (hw : QueueWhole w) (h : Step rt w e w') : QueueWhole w' := by
  rcases step_cases h with ⟨c, rfl, -, he⟩ | ⟨-, he⟩
  · by_cases hix : ∃ change, c.ix = .propose change
    · obtain ⟨change, hix⟩ := hix
      obtain ⟨tl, ht, hwhole⟩ := whole_of_exec hix h
      unfold QueueWhole
      rw [ht]
      exact Accounts.forall_insert hw ⟨change, hwhole⟩
    · intro n tl hl
      exact hw n tl (timelock_of_effect (fun change e => hix ⟨change, e⟩) he hl)
  · unfold QueueWhole
    rw [he.timelocks]
    exact hw

theorem queueWhole_of_reachable (h : Reachable rt w) : QueueWhole w := by
  obtain ⟨now, w₀, es, h₀, run⟩ := h
  refine run.invariant ?_ QueueWhole.step
  intro n tl hl
  obtain ⟨args, g, t, m, d⟩ := deployed_of_initialized h₀
  obtain ⟨usdc, -, rfl⟩ := d.state
  simp at hl

/-- Validated arguments are always written, so neither the serializer nor a length guard ever refuses
a propose: where one ends with their errors, its metadata is not valid. What an accepted propose
queues is whole. -/
theorem queued_fits (hix : c.ix = .propose change) :
    (change.Validated → ∃ data, change.encode = .ok data) ∧
    (∀ d, DataError d → exec rt c w = .error (.dominion d) →
      ∃ args, change = .metadata args ∧ validateMetadataArgs args = .error (.dominion d)) ∧
    ∀ w', exec rt c w = .ok w' → ∃ tl,
      w'.timelocks.lookup w.config.nextTimelockNonce = some tl ∧ Whole change tl := by
  refine ⟨encode_of_validated, ?_, ?_⟩
  · intro d hd h
    simp only [exec, hix, dispatch, constrain, bind_error, guardOr_error, reduceCtorEq, and_false,
      false_or] at h
    obtain ⟨-, -, h⟩ := h
    exact metadata_of_dataError hd h
  · intro w' h
    obtain ⟨tl, ht, hwhole⟩ := whole_of_exec hix h
    exact ⟨tl, by rw [ht, Finmap.lookup_insert], hwhole⟩

/-- Names and links in any script, as long as they are short enough in UTF-8. -/
def metadataCall : Call := Reference.callAt 3000 Reference.admin
  (.propose (.metadata ⟨some "Süßes Silber 銀貨", none, some "銀貨についての説明"⟩))

theorem queued_fits_metadataCall :
    ∃ tl, (Reference.next Reference.runtime Reference.start metadataCall).timelocks.lookup 0 =
      some tl ∧
        Whole (.metadata ⟨some "Süßes Silber 銀貨", none, some "銀貨についての説明"⟩) tl :=
  (queued_fits rfl).2.2 _ (Reference.exec_next (by decide +kernel))

end Runs

end DominionSilver
