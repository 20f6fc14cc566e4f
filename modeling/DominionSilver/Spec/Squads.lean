import DominionSilver.Library.Countdown
import DominionSilver.Spec.Basic

/-! The proposals that the admin console lists: `lib/squads.ts`. The Squads SDK is its two reads,
with `none` where one throws, and its derived addresses. A `bigint` is an integer of any size. -/

namespace DominionSilver

open Bytes Countdown

namespace Squads

inductive SquadsRole
  | ops | upgrade
deriving DecidableEq

structure Multisig where
  threshold : UInt16
  members : List Pubkey
  transactionIndex : UInt64
  staleTransactionIndex : UInt64
deriving DecidableEq

structure Proposal where
  /-- The kind of the status. -/
  status : Option String
  approved : Option (List Pubkey)
  rejected : Option (List Pubkey)
deriving DecidableEq

structure Sdk where
  getVaultPda : (multisigPda : Pubkey) → (index : ℕ) → Pubkey
  getProposalPda : (multisigPda : Pubkey) → (transactionIndex : ℤ) → Pubkey
  multisigAt : Pubkey → Option Multisig
  proposalAt : Pubkey → Option Proposal

/-- The addresses that the app is configured with. -/
structure Env where
  OPS_SQUADS_MULTISIG : Pubkey
  UPGRADE_SQUADS_MULTISIG : Pubkey

abbrev SYSTEM_PROGRAM : Pubkey := Bytes32.zero

def roleMultisigPda (env : Env) : SquadsRole → Pubkey
  | .ops => env.OPS_SQUADS_MULTISIG
  | .upgrade => env.UPGRADE_SQUADS_MULTISIG

/-- The placeholder is the address of the system program. -/
def isConfigured (env : Env) (role : SquadsRole) : Bool :=
  !decide (roleMultisigPda env role = SYSTEM_PROGRAM)

def roleVaultPda (sdk : Sdk) (env : Env) (role : SquadsRole) (index : ℕ) : Pubkey :=
  sdk.getVaultPda (roleMultisigPda env role) index

structure MultisigInfo where
  multisigPda : Pubkey
  vaultPda : Pubkey
  threshold : ℕ
  members : List Pubkey
  /-- The highest index so far. -/
  transactionIndex : ℤ

def fetchMultisig (sdk : Sdk) (env : Env) (role : SquadsRole) : Option MultisigInfo := do
  let multisigPda := roleMultisigPda env role
  let ms ← sdk.multisigAt multisigPda
  return {
    multisigPda := multisigPda
    vaultPda := roleVaultPda sdk env role 0
    threshold := ms.threshold.toNat
    members := ms.members
    transactionIndex := ms.transactionIndex.toNat }

inductive JsValue
  | number (n : ℕ)
  | bigint (z : ℤ)
  | key (k : Pubkey)
  | keys (ks : List Pubkey)

/-- A property of the object by its name, whatever its declared type; `none` is `undefined`. -/
def MultisigInfo.property (info : MultisigInfo) (name : String) : Option JsValue :=
  if name = "multisigPda" then some (.key info.multisigPda)
  else if name = "vaultPda" then some (.key info.vaultPda)
  else if name = "threshold" then some (.number info.threshold)
  else if name = "members" then some (.keys info.members)
  else if name = "transactionIndex" then some (.bigint info.transactionIndex)
  else none

/-- `BigInt`, which throws for what is not a number. -/
def bigInt : JsValue → Option ℤ
  | .number n => some n
  | .bigint z => some z
  | _ => none

structure ProposalView where
  /-- Voided by a later change of the multisig. -/
  stale : Bool
  transactionIndex : ℤ
  status : String
  approvals : ℕ
  rejections : ℕ
  threshold : ℕ
deriving DecidableEq

/-- The body of the loop: nothing is pushed where the read throws. -/
def viewAt (sdk : Sdk) (info : MultisigInfo) (staleAtOrBelow i : ℤ) : Option ProposalView := do
  let p ← sdk.proposalAt (sdk.getProposalPda info.multisigPda i)
  return {
    stale := i ≤ staleAtOrBelow
    transactionIndex := i
    status := p.status.getD "Unknown"
    approvals := (p.approved.map List.length).getD 0
    rejections := (p.rejected.map List.length).getD 0
    threshold := info.threshold }

def listProposals (sdk : Sdk) (env : Env) (role : SquadsRole) (lookback : Option ℤ) :
    Option (List ProposalView) := do
  let lookback := lookback.getD 20
  if isConfigured env role = false then return []
  let info ← fetchMultisig sdk env role
  let start := info.transactionIndex
  let staleAtOrBelow ← bigInt ((info.property "staleTransactionIndex").getD (.number 0))
  return countdown (fun i => viewAt sdk info staleAtOrBelow i) (start - lookback) start.toNat

end Squads

end DominionSilver
