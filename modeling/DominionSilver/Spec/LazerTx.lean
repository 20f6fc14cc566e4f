import DominionSilver.Spec.Clients

/-! How a fee exemption is laid out in its account, and how the public app reads it there:
`state/fee_exempt.rs` and the decoders of `lib/lazer-tx.ts`. The app derives its offsets from the
field types in the IDL; an error is one that its module throws when it is loaded. -/

namespace DominionSilver

open Bytes Doubles

/-- The account with the fields that no instruction reads. -/
structure StoredFeeExempt extends FeeExemptAccount where
  version : UInt8
  reserved : List UInt8
  reserved_size : reserved.length = 24
deriving DecidableEq

namespace StoredFeeExempt

abbrev DISCRIMINATOR : List UInt8 := [225, 192, 121, 56, 202, 173, 143, 115]

/-- The discriminator and the fields in the order of the layout. -/
def serialize (a : StoredFeeExempt) : List UInt8 :=
  DISCRIMINATOR ++ a.wallet.bytes ++ [a.flags] ++ toSignedLE 8 a.addedAt ++ a.addedBy.bytes ++
    [a.version] ++ toSignedLE 8 a.expiresAt ++ a.reserved

end StoredFeeExempt

namespace LazerTx

/-- The types that the IDL names by a string. -/
inductive IdlPrimitive
  | u8 | i8 | u16 | i16 | u32 | i32 | u64 | i64 | u128 | i128 | bool | pubkey
  | f32 | f64 | u256 | i256 | bytes | string
deriving DecidableEq

inductive IdlType
  | primitive (t : IdlPrimitive)
  | array (inner : IdlPrimitive) (len : ℕ)
  -- an option, a vector, a defined type and so on
  | other
deriving DecidableEq

inductive LayoutError
  | notInIdl
  | unhandledType (t : IdlType) (before : String)
  | unhandledArrayType (inner : IdlPrimitive)
  | fieldNotFound (field : String)
deriving DecidableEq

def BORSH_WIDTH : IdlPrimitive → Option ℕ
  | .u8 | .i8 | .bool => some 1
  | .u16 | .i16 => some 2
  | .u32 | .i32 => some 4
  | .u64 | .i64 => some 8
  | .u128 | .i128 => some 16
  | .pubkey => some 32
  | .f32 | .f64 | .u256 | .i256 | .bytes | .string => none

/-- The types of the IDL with the names and types of their fields, as far as the app looks them up. -/
def idl : List (String × List (String × IdlType)) :=
  [("FeeExemptAccount",
    [("wallet", .primitive .pubkey), ("flags", .primitive .u8), ("added_at", .primitive .i64),
      ("added_by", .primitive .pubkey), ("version", .primitive .u8),
      ("expires_at", .primitive .i64), ("reserved", .array .u8 24)])]

/-- The offset of a field where the fields left start at `off`. -/
def offsetFrom (field : String) : ℕ → List (String × IdlType) → Except LayoutError ℕ
  | _, [] => .error (.fieldNotFound field)
  | off, (name, t) :: fields =>
    if name = field then .ok off
    else match t with
      | .primitive p =>
        match BORSH_WIDTH p with
        | some w => offsetFrom field (off + w) fields
        | none => .error (.unhandledType t field)
      | .array inner len =>
        match BORSH_WIDTH inner with
        | some w => offsetFrom field (off + w * len) fields
        | none => .error (.unhandledArrayType inner)
      | .other => .error (.unhandledType t field)

def feeExemptOffset (field : String) : Except LayoutError ℕ :=
  match idl.lookup "FeeExemptAccount" with
  | none => .error .notInIdl
  -- the account discriminator
  | some fields => offsetFrom field 8 fields

def FEE_EXEMPT_FLAGS_OFFSET : Except LayoutError ℕ := feeExemptOffset "flags"
def FEE_EXEMPT_EXPIRES_AT_OFFSET : Except LayoutError ℕ := feeExemptOffset "expires_at"

def decodeFeeExemptFlags (data : List UInt8) : Except LayoutError (Option UInt8) := do
  let off ← FEE_EXEMPT_FLAGS_OFFSET
  if data.length < off + 1 then return none
  return some (data.getD off 0)

def decodeFeeExemptExpiry (data : List UInt8) : Except LayoutError (Option ℤ) := do
  let off ← FEE_EXEMPT_EXPIRES_AT_OFFSET
  if data.length < off + 8 then return none
  -- from the last byte, `i = 7`, to the first
  let v := (List.range 8).foldr (fun i v => (v <<< 8) ||| (data.getD (off + i) 0).toNat) 0
  let v : ℤ := if 1 <<< 63 ≤ v then v - 1 <<< 64 else v
  return some (ofInt v)

/-- The premium on the bytes of an exemption. -/
def decodedPremiumBps (configuredBps : ℤ) (data : List UInt8) (side : Side) (nowSecs : ℤ) :
    Except LayoutError ℤ := do
  let flags ← decodeFeeExemptFlags data
  let expiresAt ← decodeFeeExemptExpiry data
  return PublicApp.effectivePremiumBps configuredBps flags expiresAt side nowSecs

end LazerTx

end DominionSilver
