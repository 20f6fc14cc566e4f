import DominionSilver.Spec.Layouts
import DominionSilver.Spec.LazerTx

/-! The optional accounts of a wallet, its fee exemption and its attestation: how the public app
looks them up before it builds a trade (`lib/lazer-tx.ts`), and how Anchor loads what the trade
supplies. Anybody may create an account at an address that the program has not taken, so what lies
there need not be the program's. -/

namespace DominionSilver

open Bytes

structure AccountInfo where
  owner : Pubkey
  data : List UInt8
deriving DecidableEq

/-- What lies at the addresses that belong to the program. -/
abbrev Infos : Type := Address → Option AccountInfo

inductive LoadError
  | notInitialized | ownedByWrongProgram | discriminatorNotFound | discriminatorMismatch
  | didNotDeserialize
deriving DecidableEq

/-- Anchor's `Account::try_from`. -/
def tryFrom (programId : Pubkey) (infos : Infos) (a : Address) :
    Except LoadError (a.Body × Block a.reserved) :=
  match infos a with
  | none => .error .notInitialized
  | some info =>
    if info.owner ≠ programId then .error .ownedByWrongProgram
    else if info.data.length < 8 then .error .discriminatorNotFound
    else if info.data.take 8 ≠ a.discriminator then .error .discriminatorMismatch
    else match a.layout.read info.data with
      | none => .error .didNotDeserialize
      | some record => .ok record

namespace LazerTx

end LazerTx

end DominionSilver
