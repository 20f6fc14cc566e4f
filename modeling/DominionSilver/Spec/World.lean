import DominionSilver.Library.Tokens
import DominionSilver.Spec.Lazer
import DominionSilver.Spec.Math

/-! The accounts the program works on, the code outside the repository that it
relies on, and the account checks that Anchor makes before a handler runs. -/

namespace DominionSilver

open Checked Bytes Tokens

/-- What the Lazer program sees of a verify call. -/
structure LazerRequest where
  messageData : List UInt8
  ed25519InstructionIndex : UInt16
  signatureIndex : UInt8
  /-- The instructions of the transaction, as the sysvar account holds them. -/
  transaction : List UInt8

/-- The code outside the repository, with what the program relies on. -/
structure Runtime where
  canSign : Pubkey → Bool
  treasuryPda : Pubkey
  feeVaultPda : Pubkey
  silvMintAuthority : Pubkey
  silvMetadataAuthority : Pubkey
  lazerFeePayer : Pubkey
  ata : (owner mint : Pubkey) → Pubkey
  hash : List UInt8 → Bytes32
  tokens : TokenProgram Pubkey
  /-- The return data of a verify call, if any, with the program that set it; `none` where the call
  fails. -/
  verifyMessage : LazerRequest → Option (Option (Pubkey × List UInt8))
  zero_cannot_sign : canSign Bytes32.zero = false
  treasury_cannot_sign : canSign treasuryPda = false
  feeVault_cannot_sign : canSign feeVaultPda = false
  /-- Derived addresses do not collide with those of the vaults. -/
  vaults_apart : ∀ m m', ata treasuryPda m ≠ ata feeVaultPda m'
  user_apart : ∀ {u}, canSign u = true → ∀ m m',
    ata u m ≠ ata treasuryPda m' ∧ ata u m ≠ ata feeVaultPda m'
  /-- The Lazer program returns the signer's key, the payload's length and the signed payload. -/
  verifyMessage_payload : ∀ {req ret}, verifyMessage req = some (some (LAZER_PROGRAM_ID, ret)) →
    ∃ signer payload, signer.length = 32 ∧
      (unwrapSolanaPayload.run' req.messageData : Except LazerError (List UInt8)) = .ok payload ∧
      ret = signer ++ toLEBytes (UInt32.ofNat payload.length) ++ payload

/-- Every account the program reads or writes. -/
structure World where
  config : ConfigAccount
  timelocks : Accounts UInt64 TimelockQueueAccount
  guardians : Accounts Pubkey GuardianAccount
  feeExempts : Accounts Pubkey FeeExemptAccount
  kycs : Accounts Pubkey KycAccount
  silvMint : Mint Pubkey
  usdcDecimals : UInt8
  usdc : Ledger Pubkey
  silv : Ledger Pubkey

namespace World

def feeVault (rt : Runtime) (w : World) : Pubkey := rt.ata rt.feeVaultPda w.config.usdcMint

def treasuryBalance (w : World) : ℕ := balance w.usdc w.config.usdcTreasury

def feeVaultBalance (rt : Runtime) (w : World) : ℕ := balance w.usdc (w.feeVault rt)

end World

/-- The extensions that the SILV mint may carry. -/
def allowedExtension : Extension Pubkey → Bool
  | .metadataPointer _ _ | .tokenMetadata _ _ _ _ _ | .permanentDelegate _ => true
  | _ => false

def permanentDelegate? (m : Mint Pubkey) : Option (Option Pubkey) :=
  m.extensions.findSome? fun
    | .permanentDelegate d => some d
    | _ => none

/-- `has_one = admin` with the admin as signer. -/
def requireAdmin (signer : Pubkey) (w : World) : Result Unit :=
  constrain (w.config.admin = signer) .hasOne

/-- An account that must exist. -/
def existing {α : Type} (o : Option α) : Result α := okOr o (.constraint .accountNotInitialized)

/-- An `Option` account: absent where the caller leaves it out. -/
def optionalAccount {α : Type} (supplied : Bool) (o : Option α) : Result (Option α) :=
  if supplied then do return some (← existing o) else .ok none

/-- A token account of the given mint (`token::mint`). -/
def tokenAccount (l : Ledger Pubkey) (address mint : Pubkey) : Result (TokenAccount Pubkey) := do
  let a ← existing (l.lookup address)
  constrain (a.mint = mint) .tokenMint
  return a

/-- The associated token account of `owner`, which must exist. -/
def associated (rt : Runtime) (l : Ledger Pubkey) (owner mint : Pubkey) :
    Result (TokenAccount Pubkey) := do
  let a ← existing (l.lookup (rt.ata owner mint))
  constrain (a.owner = owner) .tokenOwner
  return a

/-- `init_if_needed` of the associated token account of `owner`. -/
def initAssociated (rt : Runtime) (l : Ledger Pubkey) (owner mint : Pubkey) :
    Result (Ledger Pubkey) :=
  match l.lookup (rt.ata owner mint) with
  | none => .ok (l.insert (rt.ata owner mint) ⟨mint, owner, none, 0⟩)
  | some a => do
    constrain (a.mint = mint) .tokenMint
    constrain (a.owner = owner) .tokenOwner
    return l

/-- The outcome of a call to another program. -/
def cpi {α : Type} (o : Option α) : Result α := okOr o .cpi

@[simp] theorem existing_ok {α : Type} {o : Option α} {a : α} : existing o = .ok a ↔ o = some a :=
  okOr_ok

@[simp] theorem existing_error {α : Type} {o : Option α} {e : Error} :
    existing o = .error e ↔ o = none ∧ .constraint .accountNotInitialized = e := okOr_error

/-- An `Option` account holds what its address holds. -/
theorem optionalAccount_some {α : Type} {supplied : Bool} {o : Option α} {a : α}
    (h : optionalAccount supplied o = .ok (some a)) : o = some a := by
  unfold optionalAccount at h
  split_ifs at h with hs
  · simp only [bind_ok, existing_ok, pure_ok] at h
    obtain ⟨b, hb, hab⟩ := h
    rw [hb, hab]
  · cases h

/-- An `Option` account loads unless the caller supplies one that does not exist. -/
theorem exists_optionalAccount {α : Type} {supplied : Bool} {o : Option α} :
    (∃ a, optionalAccount supplied o = .ok a) ↔ (supplied = true → o.isSome = true) := by
  unfold optionalAccount
  cases supplied with
  | false => simp
  | true =>
    simp only [if_true, bind_ok, existing_ok, pure_ok, forall_const, Option.isSome_iff_exists]
    exact ⟨fun ⟨_, b, hb, _⟩ => ⟨b, hb⟩, fun ⟨b, hb⟩ => ⟨_, b, hb, rfl⟩⟩

@[simp] theorem cpi_ok {α : Type} {o : Option α} {a : α} : cpi o = .ok a ↔ o = some a := okOr_ok

@[simp] theorem requireAdmin_ok {signer : Pubkey} {w : World} {u : Unit} :
    requireAdmin signer w = .ok u ↔ w.config.admin = signer := constrain_ok

theorem tokenAccount_ok {l : Ledger Pubkey} {address mint : Pubkey} {a : TokenAccount Pubkey} :
    tokenAccount l address mint = .ok a ↔ l.lookup address = some a ∧ a.mint = mint := by
  simp only [tokenAccount, bind_ok, existing_ok, constrain_ok, exists_unit, pure_ok]
  constructor
  · rintro ⟨b, hb, hm, rfl⟩; exact ⟨hb, hm⟩
  · rintro ⟨hb, hm⟩; exact ⟨a, hb, hm, rfl⟩

theorem associated_ok {rt : Runtime} {l : Ledger Pubkey} {owner mint : Pubkey}
    {a : TokenAccount Pubkey} :
    associated rt l owner mint = .ok a ↔
      l.lookup (rt.ata owner mint) = some a ∧ a.owner = owner := by
  simp only [associated, bind_ok, existing_ok, constrain_ok, exists_unit, pure_ok]
  constructor
  · rintro ⟨b, hb, ho, rfl⟩; exact ⟨hb, ho⟩
  · rintro ⟨hb, ho⟩; exact ⟨a, hb, ho, rfl⟩

/-- Creating an associated token account moves no balance. -/
theorem balance_initAssociated {rt : Runtime} {l l' : Ledger Pubkey} {owner mint : Pubkey}
    (h : initAssociated rt l owner mint = .ok l') (k : Pubkey) : balance l' k = balance l k := by
  unfold initAssociated at h
  cases hl : l.lookup (rt.ata owner mint) with
  | none =>
    rw [hl] at h
    obtain rfl := Except.ok.inj h
    rw [balance_insert]
    split_ifs with hk
    · subst hk; rw [balance_eq_zero hl]; rfl
    · rfl
  | some a =>
    rw [hl] at h
    simp only [bind_ok, constrain_ok, exists_unit, pure_ok] at h
    rw [h.2.2]

end DominionSilver
