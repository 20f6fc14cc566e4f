import DominionSilver.Library.Traces
import DominionSilver.Spec.Admin
import DominionSilver.Spec.Initialize
import DominionSilver.Spec.Priced

/-! The program: its instructions (`lib.rs`), their dispatch, and runs in which
instructions interleave with whatever other programs do. -/

namespace DominionSilver

open Checked Bytes Tokens

inductive Instruction
  /-- An `initialize` after the first. -/
  | initializeAgain
  | mintSilv (amountUsdc minSilvOut : UInt64) (accounts : PricedAccounts)
  | redeemSilv (amountSilv minUsdcOut : UInt64) (accounts : PricedAccounts)
  | depositUsdc (amount : UInt64) (userUsdcAta : Pubkey)
  | setFeeExempt (wallet : Pubkey) (flags : UInt8) (expiresAt : ℤ)
  | removeFeeExempt (wallet : Pubkey)
  | withdrawFees (amount : UInt64) (destination : Pubkey)
  | setFeeRoutingEnabled (enabled : Bool)
  | setKycOperator (operator : Pubkey)
  | setKycScope (flags : UInt8)
  | attestKyc (wallet : Pubkey) (reference : Bytes32)
  | revokeKyc (wallet : Pubkey) (allowDisarm : Bool)
  | pause (suppliesGuardian : Bool)
  | unpause (expectedReadinessDigest : Bytes32) (guardian : Pubkey)
  | setMaxSilvSupply (newMax : UInt64)
  | setPublicMintEnabled (enabled : Bool)
  | setRedemptionsEnabled (enabled : Bool)
  | setMinOperationUsdc (newMinUsdc : UInt64)
  | emergencyTightenRedeemLimits (args : RedeemLimitsArgs)
  | adminPremint (amount : UInt64) (inventorySilvAta : Pubkey)
  | addGuardian (guardianPubkey : Pubkey)
  | removeGuardian (guardianPubkey : Pubkey)
  | finalizeGuardianRemoval (guardianPubkey : Pubkey)
  | cancelGuardianRemoval (guardianPubkey : Pubkey)
  | proposeAdminTransfer (newAdmin : Pubkey)
  | acceptAdminTransfer
  | cancelAdminTransfer (suppliesGuardian : Bool)
  | cancelTimelockedAction (nonce : UInt64) (suppliesGuardian : Bool) (rentRecipient : Pubkey)
  /-- The twelve propose instructions. -/
  | propose (change : Change)
  /-- The twelve execute instructions. -/
  | execute (action : TimelockAction) (nonce : UInt64) (rentRecipient recipientAta : Pubkey)

/-- An instruction, its signer, and the clock it reads. -/
structure Call where
  now : ℤ
  now_i64 : I64 now
  signer : Pubkey
  ix : Instruction

def dispatch (rt : Runtime) (now : ℤ) (signer : Pubkey) : Instruction → World → Result World
  | .initializeAgain => fun _ => .error (.constraint .accountInUse)
  | .mintSilv amountUsdc minSilvOut accounts =>
      mintSilvHandler rt amountUsdc minSilvOut accounts now signer
  | .redeemSilv amountSilv minUsdcOut accounts =>
      redeemSilvHandler rt amountSilv minUsdcOut accounts now signer
  | .depositUsdc amount userUsdcAta => depositUsdcHandler rt amount userUsdcAta signer
  | .setFeeExempt wallet flags expiresAt => setFeeExemptHandler wallet flags expiresAt now signer
  | .removeFeeExempt wallet => removeFeeExemptHandler wallet signer
  | .withdrawFees amount destination => withdrawFeesHandler rt amount destination signer
  | .setFeeRoutingEnabled enabled => setFeeRoutingEnabledHandler enabled signer
  | .setKycOperator operator => setKycOperatorHandler operator signer
  | .setKycScope flags => setKycScopeHandler flags signer
  | .attestKyc wallet reference => attestKycHandler wallet reference now signer
  | .revokeKyc wallet allowDisarm => revokeKycHandler wallet allowDisarm signer
  | .pause suppliesGuardian => pauseHandler suppliesGuardian signer
  | .unpause expectedReadinessDigest guardian =>
      unpauseHandler rt expectedReadinessDigest guardian signer
  | .setMaxSilvSupply newMax => setMaxSilvSupplyHandler newMax signer
  | .setPublicMintEnabled enabled => setPublicMintEnabledHandler enabled signer
  | .setRedemptionsEnabled enabled => setRedemptionsEnabledHandler enabled signer
  | .setMinOperationUsdc newMinUsdc => setMinOperationUsdcHandler newMinUsdc signer
  | .emergencyTightenRedeemLimits args => emergencyTightenRedeemLimitsHandler args signer
  | .adminPremint amount inventorySilvAta => premintHandler rt amount inventorySilvAta signer
  | .addGuardian guardianPubkey => addGuardianHandler guardianPubkey now signer
  | .removeGuardian guardianPubkey => removeGuardianHandler guardianPubkey now signer
  | .finalizeGuardianRemoval guardianPubkey => finalizeGuardianRemovalHandler guardianPubkey now
  | .cancelGuardianRemoval guardianPubkey => cancelGuardianRemovalHandler guardianPubkey now signer
  | .proposeAdminTransfer newAdmin => proposeAdminTransferHandler newAdmin now signer
  | .acceptAdminTransfer => acceptAdminTransferHandler now signer
  | .cancelAdminTransfer suppliesGuardian => cancelAdminTransferHandler suppliesGuardian signer
  | .cancelTimelockedAction nonce suppliesGuardian rentRecipient =>
      cancelTimelockedHandler nonce suppliesGuardian signer rentRecipient
  | .propose change => proposeHandler change now signer
  | .execute action nonce rentRecipient recipientAta =>
      executeHandler rt recipientAta action nonce now signer rentRecipient

def exec (rt : Runtime) (c : Call) (w : World) : Result World := do
  constrain (rt.canSign c.signer = true) .signer
  dispatch rt c.now c.signer c.ix w

/-- The addresses of the two vaults and the authorities that own them. -/
def IsVault (rt : Runtime) (usdcMint address owner : Pubkey) : Prop :=
  address = rt.ata owner usdcMint ∧ (owner = rt.treasuryPda ∨ owner = rt.feeVaultPda)

/-- A vault account belongs to its authority alone. -/
def VaultsSound (rt : Runtime) (usdcMint : Pubkey) (l : Ledger Pubkey) : Prop :=
  ∀ address owner, IsVault rt usdcMint address owner → ∀ a, l.lookup address = some a →
    a.owner = owner ∧ a.delegate = none

/-- What other programs may do between two instructions. They cannot write the program's accounts,
mint SILV, or sign for a vault. -/
structure External (rt : Runtime) (w w' : World) : Prop where
  config : w'.config = w.config
  timelocks : w'.timelocks = w.timelocks
  guardians : w'.guardians = w.guardians
  feeExempts : w'.feeExempts = w.feeExempts
  kycs : w'.kycs = w.kycs
  supply : w'.silvMint.supply ≤ w.silvMint.supply
  mintAuthority : w'.silvMint.mintAuthority = w.silvMint.mintAuthority
  decimals : w'.silvMint.decimals = w.silvMint.decimals
  usdcDecimals : w'.usdcDecimals = w.usdcDecimals
  vaultsSound : VaultsSound rt w.config.usdcMint w.usdc → VaultsSound rt w.config.usdcMint w'.usdc
  vaultsKept : ∀ address owner, IsVault rt w.config.usdcMint address owner →
    ((w.usdc.lookup address).isSome → (w'.usdc.lookup address).isSome) ∧
      balance w.usdc address ≤ balance w'.usdc address

inductive Event
  | call (c : Call)
  | external

def Step (rt : Runtime) (w : World) : Event → World → Prop
  | .call c, w' => exec rt c w = .ok w'
  | .external, w' => External rt w w'

/-- `w` is what a successful `initialize` at time `now` leaves. Nobody has signed for a vault
before. -/
def Initialized (rt : Runtime) (now : ℤ) (w : World) : Prop :=
  I64 now ∧ ∃ args deployer g, VaultsSound rt g.usdcMint g.usdc ∧
    initializeHandler rt args now deployer g = .ok w

abbrev Entry := Record World Event

/-- A run from the state `w₀`; the entries are the steps, oldest first. -/
abbrev Run (rt : Runtime) (w₀ : World) (es : List Entry) (w : World) : Prop :=
  Trace (Step rt) w₀ es w

def Reachable (rt : Runtime) (w : World) : Prop :=
  ∃ now w₀ es, Initialized rt now w₀ ∧ Run rt w₀ es w

end DominionSilver
