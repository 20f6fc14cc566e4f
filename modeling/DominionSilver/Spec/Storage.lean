import DominionSilver.Library.Sizes
import DominionSilver.Spec.State

/-! The account of a queued proposal as its bytes lie in the account's data
(`state/timelock.rs`). -/

namespace DominionSilver

open Checked Bytes

instance : Codec Bytes32 where
  ser k := some k.bytes
  de bs := (Bytes32.ofBytes? (bs.take 32)).map fun k => (k, bs.drop 32)
  de_ser k bs rest h := by
    obtain rfl := Option.some.inj h
    rw [List.take_left' k.size, List.drop_left' k.size, Bytes32.ofBytes?_bytes, Option.map_some]

instance : Codec.MaxSize Bytes32 := ⟨32, fun k => ⟨k.bytes, rfl, k.size.le⟩⟩

instance : Codec TimelockQueueAccount :=
  Codec.ofTuple
    (fun a => (a.nonce, a.actionDisc, a.actionData, a.scheduledAt, a.executableAt, a.executedAt,
      a.cancelled, a.proposer, a.rentPayer))
    (fun (a, b, c, d, e, f, g, h, i) => ⟨a, b, c, d, e, f, g, h, i⟩) fun _ => rfl

namespace TimelockQueueAccount

/-- Anchor's discriminator of the account. -/
def DISCRIMINATOR : List UInt8 := [168, 218, 242, 37, 149, 142, 153, 245]

def SIZE : ℕ :=
  8 + 8 + 1 + (4 + MAX_ACTION_DATA_BYTES) + 8 + 8 + (1 + 8) + 1 + 32 + 32

/-- The account's data after Anchor writes the account back; `none` where it does not fit. -/
def trySerialize (tl : TimelockQueueAccount) (data : List UInt8) : Option (List UInt8) := do
  let bytes ← Codec.ser tl
  overwrite (DISCRIMINATOR ++ bytes) data

/-- What Anchor reads; the bytes after the account do not matter. -/
def tryDeserialize (data : List UInt8) : Option TimelockQueueAccount :=
  if data.take 8 = DISCRIMINATOR then (Codec.de (data.drop 8)).map Prod.fst else none

end TimelockQueueAccount

end DominionSilver
