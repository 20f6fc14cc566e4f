import DominionSilver.Sanity.Inversion

/-! A runtime that keeps every promise, and a deployment on it: the inputs on
which the results below are tried out. -/

namespace DominionSilver

open Checked Bytes Tokens

namespace Reference

def key (n : UInt8) : Pubkey := ⟨List.replicate 32 n, List.length_replicate⟩

abbrev treasuryPda : Pubkey := key 201
abbrev feeVaultPda : Pubkey := key 202

/-- The halves of the two keys. -/
def ata (owner mint : Pubkey) : Pubkey :=
  ⟨owner.bytes.take 16 ++ mint.bytes.take 16, by
    simp only [List.length_append, List.length_take, owner.size, mint.size]; rfl⟩

def canSign (k : Pubkey) : Bool :=
  k ≠ Bytes32.zero && k.bytes.take 16 ≠ treasuryPda.bytes.take 16 &&
    k.bytes.take 16 ≠ feeVaultPda.bytes.take 16

/-- The first 32 bytes. -/
def hash (bs : List UInt8) : Bytes32 :=
  ⟨(bs ++ List.replicate 32 0).take 32, by
    rw [List.length_take, List.length_append, List.length_replicate]; omega⟩

/-- The payload as it was signed, whoever signed it. -/
def verifyMessage (req : LazerRequest) : Option (Option (Pubkey × List UInt8)) :=
  match (unwrapSolanaPayload.run' req.messageData : Except LazerError (List UInt8)) with
  | .ok payload => some (some (LAZER_PROGRAM_ID,
      List.replicate 32 1 ++ toLEBytes (UInt32.ofNat payload.length) ++ payload))
  | .error _ => none

theorem ata_inj {o o' m m' : Pubkey} (h : ata o m = ata o' m') :
    o.bytes.take 16 = o'.bytes.take 16 := by
  have hb := congrArg Bytes32.bytes h
  refine (List.append_inj hb ?_).1
  rw [List.length_take, List.length_take, o.size, o'.size]

theorem canSign_apart {u : Pubkey} (h : canSign u = true) :
    u.bytes.take 16 ≠ treasuryPda.bytes.take 16 ∧ u.bytes.take 16 ≠ feeVaultPda.bytes.take 16 := by
  simp only [canSign, Bool.and_eq_true, decide_eq_true_eq] at h
  exact ⟨h.1.2, h.2⟩

theorem verifyMessage_payload {req : LazerRequest} {ret : List UInt8}
    (h : verifyMessage req = some (some (LAZER_PROGRAM_ID, ret))) :
    ∃ signer payload, signer.length = 32 ∧
      (unwrapSolanaPayload.run' req.messageData : Except LazerError (List UInt8)) = .ok payload ∧
      ret = signer ++ toLEBytes (UInt32.ofNat payload.length) ++ payload := by
  unfold verifyMessage at h
  split at h
  · rename_i payload hp
    obtain ⟨-, rfl⟩ := Prod.mk.inj (Option.some.inj (Option.some.inj h))
    exact ⟨_, payload, List.length_replicate, hp, rfl⟩
  · cases h

def runtime : Runtime where
  canSign := canSign
  treasuryPda := treasuryPda
  feeVaultPda := feeVaultPda
  silvMintAuthority := key 203
  silvMetadataAuthority := key 204
  lazerFeePayer := key 205
  ata := ata
  hash := hash
  tokens := Tokens.reference
  verifyMessage := verifyMessage
  zero_cannot_sign := by decide
  treasury_cannot_sign := by decide
  feeVault_cannot_sign := by decide
  vaults_apart _ _ h := absurd (ata_inj h) (by decide)
  user_apart hu _ _ := ⟨fun h => (canSign_apart hu).1 (ata_inj h),
    fun h => (canSign_apart hu).2 (ata_inj h)⟩
  verifyMessage_payload := verifyMessage_payload

abbrev admin : Pubkey := key 1
abbrev guardian : Pubkey := key 2
abbrev user : Pubkey := key 3
abbrev inventory : Pubkey := key 4
abbrev silvMintKey : Pubkey := key 5

/-- A user with 1000 USDC, a fee vault with 5 and a SILV mint as it must be. -/
def genesis : Genesis where
  upgradeAuthority := some (key 9)
  usdcMint := USDC_DEVNET
  usdcDecimals := 6
  silvMintKey := silvMintKey
  silvMint := {
    supply := 0, decimals := 6, mintAuthority := some (key 203), freezeAuthority := some (key 6)
    extensions := [.metadataPointer (some (key 204)) (some silvMintKey),
      .tokenMetadata (some (key 204)) silvMintKey "Silver" "SILV" "",
      .permanentDelegate (some (key 7))] }
  usdc := ((∅ : Ledger Pubkey).insert (ata user USDC_DEVNET)
      ⟨USDC_DEVNET, user, none, 1000000000⟩).insert (ata feeVaultPda USDC_DEVNET)
        ⟨USDC_DEVNET, feeVaultPda, none, 5000000⟩
  silv := (∅ : Ledger Pubkey).insert (ata inventory silvMintKey) ⟨silvMintKey, inventory, none, 0⟩

def initializeArgs : InitializeArgs where
  admin := admin
  permanentDelegateExpected := key 7
  freezeAuthorityExpected := key 6
  complianceMode := false
  premiumBpsMint := 100
  premiumBpsRedeem := 100
  pythLazerFeedId := 345
  adminTimelockSeconds := 0
  maxGuardianCount := 0
  inventoryWallet := inventory
  guardian := guardian

theorem ok_get {r : Result World} (h : r.toOption.isSome = true) :
    r = .ok (r.toOption.get h) := by
  cases r with
  | ok w => rfl
  | error e => cases h

/-- The state after a call, which is the state before where the call fails. -/
def next (rt : Runtime) (w : World) (c : Call) : World := (exec rt c w).toOption.getD w

/-- The last state of a list of calls. -/
def final (rt : Runtime) (w : World) (cs : List Call) : World := cs.foldl (next rt) w

def entries (rt : Runtime) : World → List Call → List Entry
  | _, [] => []
  | w, c :: cs => ⟨w, .call c, next rt w c⟩ :: entries rt (next rt w c) cs

def succeeds (rt : Runtime) : World → List Call → Bool
  | _, [] => true
  | w, c :: cs => (exec rt c w).isOk && succeeds rt (next rt w c) cs

theorem exec_next {rt : Runtime} {w : World} {c : Call} (h : (exec rt c w).isOk = true) :
    exec rt c w = .ok (next rt w c) := by
  unfold next
  cases hr : exec rt c w with
  | ok w' => rfl
  | error e => rw [hr] at h; cases h

theorem run_of_succeeds {rt : Runtime} {w : World} {cs : List Call}
    (h : succeeds rt w cs = true) : Run rt w (entries rt w cs) (final rt w cs) := by
  induction cs generalizing w with
  | nil => exact .nil
  | cons c cs ih =>
    obtain ⟨h1, h2⟩ := Bool.and_eq_true_iff.1 h
    exact Trace.append (.snoc .nil (exec_next h1)) (ih h2)

theorem forall_entries {rt : Runtime} {p : Call → Prop} {w : World} {cs : List Call}
    (h : ∀ c ∈ cs, p c) : ∀ r ∈ entries rt w cs, ∀ c, r.event = .call c → p c := by
  induction cs generalizing w with
  | nil => intro r hr; cases hr
  | cons a cs ih =>
    intro r hr c hc
    rcases List.mem_cons.1 hr with rfl | hr
    · obtain rfl := Event.call.inj hc
      exact h a List.mem_cons_self
    · exact ih (fun c hc => h c (List.mem_cons_of_mem a hc)) r hr c hc

theorem entries_calls {rt : Runtime} {w : World} {cs : List Call} :
    ∀ r ∈ entries rt w cs, ∃ c, r.event = .call c := by
  induction cs generalizing w with
  | nil => intro r hr; cases hr
  | cons a cs ih =>
    intro r hr
    rcases List.mem_cons.1 hr with rfl | hr
    · exact ⟨a, rfl⟩
    · exact ih r hr

/-- The state that the deployment leaves, 1000 seconds after the epoch. -/
def deployment : Result World := initializeHandler runtime initializeArgs 1000 (key 9) genesis

def start : World := deployment.toOption.get (by decide)

theorem vaultsSound_genesis : VaultsSound runtime genesis.usdcMint genesis.usdc := by
  rintro address owner ⟨rfl, rfl | rfl⟩ a ha
  · have hnone : genesis.usdc.lookup (ata treasuryPda USDC_DEVNET) = none := by decide
    exact absurd (hnone.symm.trans ha) (by simp)
  · have hsome : genesis.usdc.lookup (ata feeVaultPda USDC_DEVNET) =
        some ⟨USDC_DEVNET, feeVaultPda, none, 5000000⟩ := by decide
    obtain rfl := Option.some.inj (hsome.symm.trans ha)
    exact ⟨rfl, rfl⟩

theorem initialized_start : Initialized runtime 1000 start :=
  ⟨by decide, initializeArgs, key 9, genesis, vaultsSound_genesis, ok_get (by decide)⟩

theorem i64_seconds (seconds : UInt32) : I64 seconds.toNat := by
  have := seconds.toNat_lt
  unfold I64
  omega

/-- A call so many seconds after the epoch. -/
def callAt (seconds : UInt32) (signer : Pubkey) (ix : Instruction) : Call :=
  ⟨seconds.toNat, i64_seconds seconds, signer, ix⟩

/-- Opens for business, with the digest of the config that was deployed. -/
def unpauseCall : Call := callAt 2000 admin (.unpause (hash start.config.readinessBytes) guardian)

theorem reachable_final {cs : List Call} (h : succeeds runtime start cs = true) :
    Reachable runtime (final runtime start cs) :=
  ⟨1000, start, _, initialized_start, run_of_succeeds h⟩

/-- A print of feed 345 with a price of thirty dollars, three publishers and a tight confidence. -/
def printAt (timestampUs : UInt64) : List UInt8 :=
  toLEBytes PAYLOAD_FORMAT_MAGIC ++ toLEBytes timestampUs ++ [LAZER_CHANNEL_ID, 1] ++
    toLEBytes (345 : UInt32) ++ [5] ++
    [0] ++ toLEBytes (3000000000 : UInt64) ++ [3] ++ toLEBytes (3 : UInt16) ++
    -- the exponent is minus eight
    [4] ++ toLEBytes (65528 : UInt16) ++ [5] ++ toLEBytes (1000000 : UInt64) ++
    [12, 1] ++ toLEBytes timestampUs

def signedMessage (payload : List UInt8) : List UInt8 :=
  toLEBytes SOLANA_FORMAT_MAGIC ++ List.replicate 96 1 ++
    toLEBytes (UInt16.ofNat payload.length) ++ payload

def pricedAt (timestampUs : UInt64) : PricedAccounts where
  suppliesFeeExempt := false
  suppliesKyc := false
  lazer := {
    lazerProgram := LAZER_PROGRAM_ID, executable := true, storage := LAZER_STORAGE
    storageData := List.replicate 40 0 ++ (key 8).bytes ++ toLEBytes (5 : UInt64)
    treasury := key 8, feePayer := key 205, instructionsSysvar := INSTRUCTIONS_SYSVAR
    systemProgram := Bytes32.zero, funderLamports := 1000000
    request := {
      messageData := signedMessage (printAt timestampUs), ed25519InstructionIndex := 0
      signatureIndex := 0, transaction := [] } }

def mintCall : Call := callAt 3000 user (.mintSilv 100000000 0 (pricedAt 2999000000))

def redeemCall : Call := callAt 3001 user (.redeemSilv 3000000 0 (pricedAt 3000000000))

/-- Unpause, mint for a hundred dollars and redeem most of it. -/
def tradeCalls : List Call := [unpauseCall, mintCall, redeemCall]

example : succeeds runtime start tradeCalls = true := by decide +kernel

def proposeFloat : Call := callAt 3000 admin (.propose (.treasuryFloat 7))

def executeFloat : Call := callAt 89400 admin (.execute .setTreasuryFloat 0 admin admin)

/-- A new treasury float, proposed and executed a day later. -/
def floatCalls : List Call := [proposeFloat, executeFloat]

end Reference

end DominionSilver
