import DominionSilver.Spec.Main

/-! Queued arguments are read back as they were written: what an execute
handler decodes from `action_data` is the change that was proposed. -/

namespace DominionSilver

open Checked Bytes

/-- The change an action's execute handler reads from `action_data`. -/
def decodeChange (k : TimelockAction) (data : List UInt8) : Option Change :=
  match k with
  | .setPremiumMint => (fromLEBytes UInt16 data).map .premiumMint
  | .setPremiumRedeem => (fromLEBytes UInt16 data).map .premiumRedeem
  | .withdrawUsdc => (fromLEBytes UInt64 data).bind fun amount =>
      (Bytes32.ofBytes? ((data.drop 8).take 32)).map (.withdrawUsdc amount)
  | .setTreasuryFloat => (fromLEBytes UInt64 data).map .treasuryFloat
  | .setOracleGuards => (Codec.tryFromSlice OracleGuardsArgs data).map .oracleGuards
  | .updateMetadata => (Codec.tryFromSlice MetadataArgs data).map .metadata
  | .setComplianceMode => some (.complianceMode (data.headD 0 ≠ 0))
  | .setPythFeed => (fromLEBytes UInt32 data).map .pythFeed
  | .setAdminTimelock => (fromLEBytes UInt32 data).map .adminTimelock
  | .setRedeemLimits => (Codec.tryFromSlice RedeemLimitsArgs data).map .redeemLimits
  | .setPublicMint => some (.publicMint (data.headD 0 ≠ 0))
  | .setInventoryWallet => (Bytes32.ofBytes? data).map .inventoryWallet

theorem fromLEBytes_self {α : Type} [Word α] (a : α) : fromLEBytes α (toLEBytes a) = some a := by
  have := fromLEBytes_toLEBytes a []
  rwa [List.append_nil] at this

theorem serializeArgs_ok {α : Type} [Codec α] {args : α} {e : DominionError} {data : List UInt8} :
    serializeArgs args e = .ok data ↔
      Codec.ser args = some data ∧ data.length ≤ MAX_ACTION_DATA_BYTES := by
  simp only [serializeArgs, bind_ok, okOr_ok, require_ok, exists_unit, pure_ok]
  constructor
  · rintro ⟨d, hd, hl, rfl⟩; exact ⟨hd, hl⟩
  · rintro ⟨hd, hl⟩; exact ⟨data, hd, hl, rfl⟩

theorem decodeChange_encode {change : Change} {data : List UInt8}
    (h : change.encode = .ok data) : decodeChange change.kind data = some change := by
  cases change with
  | premiumMint newBps =>
    obtain rfl := Except.ok.inj h
    simp only [Change.kind, decodeChange, fromLEBytes_self, Option.map_some]
  | premiumRedeem newBps =>
    obtain rfl := Except.ok.inj h
    simp only [Change.kind, decodeChange, fromLEBytes_self, Option.map_some]
  | withdrawUsdc amount recipient =>
    obtain rfl := Except.ok.inj h
    have hl : (toLEBytes amount).length = 8 := length_toLEBytes amount
    rw [Change.kind, decodeChange, fromLEBytes_toLEBytes, Option.bind_some, List.drop_left' hl,
      List.take_of_length_le (recipient.size.le), Bytes32.ofBytes?_bytes, Option.map_some]
  | treasuryFloat newFloatUsdc =>
    obtain rfl := Except.ok.inj h
    simp only [Change.kind, decodeChange, fromLEBytes_self, Option.map_some]
  | oracleGuards args =>
    have hs := (serializeArgs_ok.1 h).1
    simp only [Change.kind, decodeChange, Codec.tryFromSlice_ser hs, Option.map_some]
  | metadata args =>
    have hs := (serializeArgs_ok.1 h).1
    simp only [Change.kind, decodeChange, Codec.tryFromSlice_ser hs, Option.map_some]
  | complianceMode newValue =>
    obtain rfl := Except.ok.inj h
    cases newValue <;> rfl
  | pythFeed newLazerFeedId =>
    obtain rfl := Except.ok.inj h
    simp only [Change.kind, decodeChange, fromLEBytes_self, Option.map_some]
  | adminTimelock newSeconds =>
    obtain rfl := Except.ok.inj h
    simp only [Change.kind, decodeChange, fromLEBytes_self, Option.map_some]
  | redeemLimits args =>
    have hs := (serializeArgs_ok.1 h).1
    simp only [Change.kind, decodeChange, Codec.tryFromSlice_ser hs, Option.map_some]
  | publicMint newValue =>
    obtain rfl := Except.ok.inj h
    cases newValue <;> rfl
  | inventoryWallet newWallet =>
    obtain rfl := Except.ok.inj h
    rw [Change.kind, decodeChange, Bytes32.ofBytes?_bytes, Option.map_some]

end DominionSilver
