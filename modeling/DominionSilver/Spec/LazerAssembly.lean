import DominionSilver.Library.Slices
import DominionSilver.Spec.Lazer

/-! The transaction that the public app builds around a priced instruction:
`lib/lazer-assembly.ts` and `assembleLazerOracleIxs` of `lib/lazer-tx.ts`. Offsets and indices are
numbers of any size until they are written as two bytes. -/

namespace DominionSilver

open Checked Bytes Slices

namespace LazerAssembly

abbrev MAGIC_LEN : ℕ := 4
abbrev SIGNATURE_LEN : ℕ := 64
abbrev PUBKEY_LEN : ℕ := 32
abbrev MESSAGE_SIZE_LEN : ℕ := 2
abbrev ENVELOPE_HEADER_LEN : ℕ := MAGIC_LEN + SIGNATURE_LEN + PUBKEY_LEN + MESSAGE_SIZE_LEN

def ED25519_PROGRAM_ID : Pubkey :=
  ⟨[3, 125, 70, 214, 124, 147, 251, 190, 18, 249, 66, 143, 131, 141, 64, 255,
    5, 112, 116, 73, 39, 244, 138, 100, 252, 202, 112, 68, 128, 0, 0, 0], rfl⟩

/-- What is thrown: an `Error` with its message, or the `RangeError` of a write that does not
fit. -/
inductive Thrown
  | error (message : String)
  | rangeError (value : ℕ)
deriving DecidableEq

structure AccountMeta where
  pubkey : Pubkey
  isSigner : Bool
  isWritable : Bool
deriving DecidableEq

structure TransactionInstruction where
  programId : Pubkey
  keys : List AccountMeta
  data : List UInt8
deriving DecidableEq

structure ParsedSolanaMessage where
  signature : List UInt8
  publicKey : List UInt8
  /-- What the price comes from. -/
  payload : List UInt8
deriving DecidableEq

/-- `getUint16` and `getUint32` of a `DataView`, little-endian. -/
def getUint (width : ℕ) (data : List UInt8) (off : ℕ) : ℕ := ofLE (slice data off (off + width))

def parseSolanaMessage (envelope : List UInt8) : Except Thrown ParsedSolanaMessage := do
  guardOr (ENVELOPE_HEADER_LEN ≤ envelope.length) (.error "Lazer envelope too short")
  let magic := getUint 4 envelope 0
  guardOr (magic = SOLANA_FORMAT_MAGIC.toNat)
    (.error ("Lazer envelope magic mismatch (got " ++ toString magic ++ ")"))
  let off := MAGIC_LEN
  let signature := slice envelope off (off + SIGNATURE_LEN)
  let off := off + SIGNATURE_LEN
  let publicKey := slice envelope off (off + PUBKEY_LEN)
  let off := off + PUBKEY_LEN
  let payloadLen := getUint 2 envelope off
  let off := off + MESSAGE_SIZE_LEN
  let payload := slice envelope off (off + payloadLen)
  guardOr (payload.length = payloadLen) (.error "Lazer envelope payload truncated")
  return ⟨signature, publicKey, payload⟩

/-- `none` where the source returns minus one. -/
def indexOfSubarray (haystack needle : List UInt8) : Option ℕ :=
  if needle.length = 0 ∨ haystack.length < needle.length then none
  else firstIndex 0 haystack needle

def lazerMessageData (envelope : List UInt8) : Except Thrown (List UInt8) := do
  let _ ← parseSolanaMessage envelope
  return envelope

/-- The two bytes that `writeUInt16LE` writes. -/
def writeUInt16LE (value : ℕ) : Except Thrown (List UInt8) := do
  guardOr (value < 65536) (.rangeError value)
  return toLE 2 value

def buildLazerEd25519Instruction (dominionIxData envelope : List UInt8)
    (dominionInstructionIndex : ℕ) : Except Thrown TransactionInstruction := do
  let message ← parseSolanaMessage envelope
  let startingOffset ← okOr (indexOfSubarray dominionIxData envelope) (.error
    "Lazer envelope not found in the dominion instruction data (message_data must be the envelope)")
  let signatureOffset := startingOffset + MAGIC_LEN
  let publicKeyOffset := signatureOffset + SIGNATURE_LEN
  let messageDataSizeOffset := publicKeyOffset + PUBKEY_LEN
  let messageDataOffset := messageDataSizeOffset + MESSAGE_SIZE_LEN
  let messageDataSize := message.payload.length
  let b₁ ← writeUInt16LE signatureOffset
  let b₂ ← writeUInt16LE dominionInstructionIndex
  let b₃ ← writeUInt16LE publicKeyOffset
  let b₄ ← writeUInt16LE dominionInstructionIndex
  let b₅ ← writeUInt16LE messageDataOffset
  let b₆ ← writeUInt16LE messageDataSize
  let b₇ ← writeUInt16LE dominionInstructionIndex
  -- one signature, and a byte of padding
  return ⟨ED25519_PROGRAM_ID, [], [1, 0] ++ b₁ ++ b₂ ++ b₃ ++ b₄ ++ b₅ ++ b₆ ++ b₇⟩

structure LazerOracleTx where
  ed25519Ix : TransactionInstruction
  ed25519InstructionIndex : ℕ
  signatureIndex : ℕ
deriving DecidableEq

def assembleLazerTx (dominionIxData envelope : List UInt8)
    (dominionInstructionIndex ed25519InstructionIndex : Option ℕ) :
    Except Thrown LazerOracleTx := do
  let dominionInstructionIndex := dominionInstructionIndex.getD 1
  let ed25519InstructionIndex := ed25519InstructionIndex.getD 0
  let ed25519Ix ← buildLazerEd25519Instruction dominionIxData envelope dominionInstructionIndex
  return ⟨ed25519Ix, ed25519InstructionIndex, 0⟩

end LazerAssembly

namespace LazerTx

open LazerAssembly

abbrev COMPUTE_BUDGET_IX_COUNT : ℕ := 2
abbrev ED25519_IX_INDEX : ℕ := COMPUTE_BUDGET_IX_COUNT
abbrev PRIORITY_FEE_MICROLAMPORTS : ℕ := 1000
abbrev CU_LIMIT : ℕ := 400000

/-- The instructions of the compute budget, as the library makes them. -/
structure ComputeBudgetProgram where
  setComputeUnitLimit : (units : ℕ) → TransactionInstruction
  setComputeUnitPrice : (microLamports : ℕ) → TransactionInstruction

def computeBudgetIxs (cb : ComputeBudgetProgram) : List TransactionInstruction :=
  [cb.setComputeUnitLimit CU_LIMIT, cb.setComputeUnitPrice PRIORITY_FEE_MICROLAMPORTS]

def assembleLazerOracleIxs (cb : ComputeBudgetProgram) (dominionIx : TransactionInstruction)
    (envelope : List UInt8) (ataIxs : List TransactionInstruction) :
    Except Thrown (List TransactionInstruction) := do
  let cbIxs := computeBudgetIxs cb
  let dominionInstructionIndex := cbIxs.length + 1 + ataIxs.length
  let assembled ← assembleLazerTx dominionIx.data envelope (some dominionInstructionIndex)
    (some ED25519_IX_INDEX)
  return cbIxs ++ [assembled.ed25519Ix] ++ ataIxs ++ [dominionIx]

end LazerTx

end DominionSilver
