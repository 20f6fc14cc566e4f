import DominionSilver.Spec.AdminClient
import DominionSilver.Spec.Layouts

/-! The console's builders of what the admin's vault is to carry out (`lib/admin-actions.ts` and
`lib/readiness-digest.ts` of the admin app). An instruction is built from the accounts as they are
read, and carried out later as it was built. -/

namespace DominionSilver

open Checked Bytes

namespace AdminApp

/-- The bytes that `readinessDigest` hashes. -/
def readinessBytes (c : ConfigAccount) : List UInt8 :=
  c.admin.bytes ++ c.silvMint.bytes ++ c.inventoryWallet.bytes ++
    [if c.publicMintEnabled then 1 else 0] ++ [if c.redemptionsEnabled then 1 else 0] ++
    [UInt8.ofNat c.guardianCount.toNat] ++ toLE 2 c.minPublishers.toNat ++
    toLE 4 c.pythLazerFeedId.toNat

structure Message where
  signer : Pubkey
  timelock : Option Address
  ix : Instruction

/-- Carrying it out. `init` derives the address of the queue account anew, and looks at it after the
signers and before the other accounts. -/
def Message.exec (m : Message) (rt : Runtime) (now : ℤ) (hnow : I64 now) (w : World) :
    Result World := do
  constrain (rt.canSign m.signer = true) .signer
  constrain (m.timelock.all fun t => t = .timelock w.config.nextTimelockNonce) .seeds
  DominionSilver.exec rt ⟨now, hnow, m.signer, m.ix⟩ w

/-- The queue account is that of the nonce which is next now. -/
def propose (c : ConfigAccount) (admin : Pubkey) (change : Change) : Message :=
  ⟨admin, some (.timelock c.nextTimelockNonce), .propose change⟩

inductive BuildError
  | unsafeNumber | noEligibleGuardian
deriving DecidableEq

/-- `fetchedAdmin` is the admin as read, and nothing where the read fails. -/
def unpause [BnJs] (rt : Runtime) (c : ConfigAccount) (rows : List GuardianAccount) (admin : Pubkey)
    (fetchedAdmin : Option Pubkey) (nowSecs : ℤ) : Except BuildError Message := do
  let onchainAdmin := fetchedAdmin.getD admin
  let views ← okOr (fetchGuardians rows (some onchainAdmin) nowSecs) .unsafeNumber
  let eligible := views.filter fun g => g.active
  let present ← okOr (eligible.head?.map GuardianView.guardian) .noEligibleGuardian
  return ⟨admin, none, .unpause (rt.hash (readinessBytes c)) present⟩

end AdminApp

end DominionSilver
