import DominionSilver.Proofs.Grammar
import DominionSilver.Spec.LazerAssembly

/-! The signature check that the public app puts before a priced instruction. Its offsets point at
the envelope within that instruction's data, at the first place where it stands there, and select
the signature, the key and the payload that the program prices by. The bytes from the magic to the
end of the payload are the whole message where nothing follows the payload. -/

namespace DominionSilver

open Checked Bytes Slices LazerAssembly LazerTx

section Envelope

variable {envelope : List UInt8} {m : ParsedSolanaMessage}

theorem getUint_two_lt (data : List UInt8) (off : ℕ) : getUint 2 data off < 65536 := by
  refine (ofLE_lt _).trans_le (Nat.pow_le_pow_right (by norm_num : 0 < 256) ?_ : _ ≤ 256 ^ 2)
  rw [slice, Nat.add_sub_cancel_left]
  exact List.length_take_le _ _

/-- What the app finds in an envelope that it accepts. -/
structure Parsed (envelope : List UInt8) (m : ParsedSolanaMessage) : Prop where
  magic : getUint 4 envelope 0 = SOLANA_FORMAT_MAGIC.toNat
  signature : m.signature = slice envelope 4 68
  publicKey : m.publicKey = slice envelope 68 100
  declared : m.payload.length = getUint 2 envelope 100
  payload : m.payload = slice envelope 102 (102 + m.payload.length)
  fits : 102 + m.payload.length ≤ envelope.length

theorem parsed (h : parseSolanaMessage envelope = .ok m) : Parsed envelope m := by
  simp only [parseSolanaMessage, bind_ok, guardOr_ok, exists_unit, pure_ok] at h
  obtain ⟨hlen, hmagic, hpayload, rfl⟩ := h
  have hlen : 102 ≤ envelope.length := hlen
  have hpayload : (slice envelope 102 (102 + getUint 2 envelope 100)).length =
      getUint 2 envelope 100 := hpayload
  refine ⟨hmagic, rfl, rfl, hpayload, ?_, ?_⟩
  · change _ = slice envelope 102 (102 + (slice envelope 102 (102 + getUint 2 envelope 100)).length)
    rw [hpayload]
    rfl
  · change 102 + (slice envelope 102 (102 + getUint 2 envelope 100)).length ≤ _
    rw [slice, List.length_take, List.length_drop]
    omega

theorem Parsed.parts (h : Parsed envelope m) :
    envelope = toLEBytes SOLANA_FORMAT_MAGIC ++ (m.signature ++ (m.publicKey ++
      (toLEBytes (UInt16.ofNat m.payload.length) ++
        (m.payload ++ envelope.drop (102 + m.payload.length))))) := by
  have hfits := h.fits
  have hmagic : toLEBytes SOLANA_FORMAT_MAGIC = slice envelope 0 4 := by
    have hlen : (slice envelope 0 4).length = Word.width UInt32 := length_slice (by omega)
    have := toLEBytes_ofLE hlen
    rw [show ofLE (slice envelope 0 4) = SOLANA_FORMAT_MAGIC.toNat from h.magic] at this
    exact this
  have hsize : toLEBytes (UInt16.ofNat m.payload.length) = slice envelope 100 102 := by
    rw [h.declared]
    exact toLEBytes_ofLE (α := UInt16) (length_slice (l := envelope) (by omega))
  have hpayload : m.payload ++ envelope.drop (102 + m.payload.length) = envelope.drop 102 := by
    rw [drop_eq_slice_append envelope (Nat.le_add_right 102 m.payload.length), ← h.payload]
  rw [hmagic, h.signature, h.publicKey, hsize, hpayload,
    ← drop_eq_slice_append envelope (by norm_num : 100 ≤ 102),
    ← drop_eq_slice_append envelope (by norm_num : 68 ≤ 100),
    ← drop_eq_slice_append envelope (by norm_num : 4 ≤ 68),
    ← drop_eq_slice_append envelope (by norm_num : 0 ≤ 4), List.drop_zero]

theorem Parsed.unwrap (h : Parsed envelope m) :
    (unwrapSolanaPayload.run' envelope : Except LazerError (List UInt8)) = .ok m.payload := by
  have hfits := h.fits
  have hsignature : m.signature.length = 64 := by rw [h.signature, length_slice (by omega)]
  have hkey : m.publicKey.length = 32 := by rw [h.publicKey, length_slice (by omega)]
  have hsize : (UInt16.ofNat m.payload.length).toNat = m.payload.length :=
    UInt16.toNat_ofNat_of_lt' (h.declared ▸ getUint_two_lt _ _)
  have hread : unwrapSolanaPayload envelope =
      .ok (m.payload, envelope.drop (102 + m.payload.length)) := by
    refine reader_bind_ok.2 ⟨_, _, u32_iff.2 h.parts, ?_⟩
    rw [if_neg fun hne => hne rfl]
    refine reader_bind_ok.2 ⟨_, _, take_iff.2 ⟨rfl, hsignature⟩, ?_⟩
    refine reader_bind_ok.2 ⟨_, _, take_iff.2 ⟨rfl, hkey⟩, ?_⟩
    exact reader_bind_ok.2 ⟨_, _, u16_iff.2 rfl, take_iff.2 ⟨rfl, hsize.symm⟩⟩
  simp only [StateT.run', hread]
  rfl

end Envelope

section Offsets

/-- Where an ed25519 instruction finds the parts of its check, each in the data of the instruction
with the index given. -/
structure SignatureOffsets where
  signatureOffset : ℕ
  signatureInstructionIndex : ℕ
  publicKeyOffset : ℕ
  publicKeyInstructionIndex : ℕ
  messageDataOffset : ℕ
  messageDataSize : ℕ
  messageInstructionIndex : ℕ
deriving DecidableEq

/-- The offsets of the first check, which come after two bytes. -/
def SignatureOffsets.read (data : List UInt8) : SignatureOffsets :=
  ⟨getUint 2 data 2, getUint 2 data 4, getUint 2 data 6, getUint 2 data 8, getUint 2 data 10,
    getUint 2 data 12, getUint 2 data 14⟩

theorem writeUInt16LE_ok {n : ℕ} (h : n < 65536) : writeUInt16LE n = .ok (toLE 2 n) := by
  simp only [writeUInt16LE, guardOr, if_pos h]
  rfl

variable {data envelope : List UInt8} {m : ParsedSolanaMessage} {start n : ℕ}

theorem build_eq (hm : parseSolanaMessage envelope = .ok m)
    (hstart : indexOfSubarray data envelope = some start) :
    buildLazerEd25519Instruction data envelope n = (do
      let b₁ ← writeUInt16LE (start + 4)
      let b₂ ← writeUInt16LE n
      let b₃ ← writeUInt16LE (start + 68)
      let b₄ ← writeUInt16LE n
      let b₅ ← writeUInt16LE (start + 102)
      let b₆ ← writeUInt16LE m.payload.length
      let b₇ ← writeUInt16LE n
      return ⟨ED25519_PROGRAM_ID, [], [1, 0] ++ b₁ ++ b₂ ++ b₃ ++ b₄ ++ b₅ ++ b₆ ++ b₇⟩) := by
  simp only [buildLazerEd25519Instruction, hm, hstart, okOr]
  rfl

theorem build_ok (hm : parseSolanaMessage envelope = .ok m)
    (hstart : indexOfSubarray data envelope = some start) (hs : start + 102 < 65536)
    (hn : n < 65536) :
    ∃ ix, buildLazerEd25519Instruction data envelope n = .ok ix ∧
      ix.programId = ED25519_PROGRAM_ID ∧ ix.data.head? = some 1 ∧
      SignatureOffsets.read ix.data =
        ⟨start + 4, n, start + 68, n, start + 102, m.payload.length, n⟩ := by
  have hsize : m.payload.length < 65536 := (parsed hm).declared ▸ getUint_two_lt _ _
  have h4 : start + 4 < 65536 := by omega
  have h68 : start + 68 < 65536 := by omega
  refine ⟨⟨ED25519_PROGRAM_ID, [], [1, 0] ++ toLE 2 (start + 4) ++ toLE 2 n ++ toLE 2 (start + 68) ++
    toLE 2 n ++ toLE 2 (start + 102) ++ toLE 2 m.payload.length ++ toLE 2 n⟩, ?_, rfl, rfl, ?_⟩
  · rw [build_eq hm hstart, writeUInt16LE_ok h4, writeUInt16LE_ok hn, writeUInt16LE_ok h68,
      writeUInt16LE_ok hs, writeUInt16LE_ok hsize]
    rfl
  · change (⟨ofLE (toLE 2 (start + 4)), ofLE (toLE 2 n), ofLE (toLE 2 (start + 68)),
      ofLE (toLE 2 n), ofLE (toLE 2 (start + 102)), ofLE (toLE 2 m.payload.length),
      ofLE (toLE 2 n)⟩ : SignatureOffsets) = _
    rw [ofLE_toLE _ _ h4, ofLE_toLE _ _ hn, ofLE_toLE _ _ h68, ofLE_toLE _ _ hs,
      ofLE_toLE _ _ hsize]

theorem build_out_of_range (hm : parseSolanaMessage envelope = .ok m)
    (hstart : indexOfSubarray data envelope = some start) (hs : start + 4 < 65536)
    (hn : 65536 ≤ n) :
    buildLazerEd25519Instruction data envelope n = .error (.rangeError n) := by
  have hindex : writeUInt16LE n = .error (.rangeError n) := by
    simp only [writeUInt16LE, guardOr, if_neg (Nat.not_lt.2 hn)]
    rfl
  rw [build_eq hm hstart, writeUInt16LE_ok hs, hindex]
  rfl

end Offsets

section Transaction

variable {cb : ComputeBudgetProgram} {dominionIx : TransactionInstruction}
  {envelope messageData front back : List UInt8} {ataIxs : List TransactionInstruction}

/-- The check before `dominionIx` in `ixs`, with the offsets `o`, is that of the message `m`. -/
structure Selects (o : SignatureOffsets) (ixs : List TransactionInstruction)
    (dominionIx : TransactionInstruction) (m : ParsedSolanaMessage) : Prop where
  last : o.signatureInstructionIndex + 1 = ixs.length
  indexed : ixs[o.signatureInstructionIndex]? = some dominionIx
  publicKeyIndex : o.publicKeyInstructionIndex = o.signatureInstructionIndex
  messageIndex : o.messageInstructionIndex = o.signatureInstructionIndex
  precedes : ED25519_IX_INDEX < o.signatureInstructionIndex
  signature : slice dominionIx.data o.signatureOffset (o.signatureOffset + 64) = m.signature
  publicKey : slice dominionIx.data o.publicKeyOffset (o.publicKeyOffset + 32) = m.publicKey
  payload : slice dominionIx.data o.messageDataOffset (o.messageDataOffset + o.messageDataSize) =
    m.payload
  magic : MAGIC_LEN ≤ o.signatureOffset

/-- The bytes that the program compares with the message it is handed. -/
def compared (o : SignatureOffsets) (dominionIx : TransactionInstruction) : List UInt8 :=
  slice dominionIx.data (o.signatureOffset - MAGIC_LEN) (o.messageDataOffset + o.messageDataSize)

theorem lazerMessageData_ok (h : lazerMessageData envelope = .ok messageData) :
    messageData = envelope ∧ ∃ m, parseSolanaMessage envelope = .ok m := by
  simp only [lazerMessageData, bind_ok, pure_ok] at h
  obtain ⟨m, hm, rfl⟩ := h
  exact ⟨rfl, m, hm⟩

theorem indexOfSubarray_append (front back : List UInt8) (hne : envelope ≠ []) :
    ∃ front' back', front ++ envelope ++ back = front' ++ envelope ++ back' ∧
      front'.length ≤ front.length ∧
      indexOfSubarray (front ++ envelope ++ back) envelope = some front'.length := by
  obtain ⟨front', back', he, hle, hfirst⟩ := firstIndex_append 0 front envelope back
  refine ⟨front', back', he, hle, ?_⟩
  have hpos := List.length_pos_of_ne_nil hne
  unfold indexOfSubarray
  rw [if_neg, hfirst]
  simp only [List.length_append]
  omega

theorem assemble_eq :
    assembleLazerOracleIxs cb dominionIx envelope ataIxs = (do
      let ed25519Ix ← buildLazerEd25519Instruction dominionIx.data envelope (3 + ataIxs.length)
      return computeBudgetIxs cb ++ [ed25519Ix] ++ ataIxs ++ [dominionIx]) := by
  change (do
    let assembled ← assembleLazerTx dominionIx.data envelope (some (3 + ataIxs.length))
      (some ED25519_IX_INDEX)
    return computeBudgetIxs cb ++ [assembled.ed25519Ix] ++ ataIxs ++ [dominionIx]) = _
  simp only [assembleLazerTx, Option.getD_some]
  cases buildLazerEd25519Instruction dominionIx.data envelope (3 + ataIxs.length) <;> rfl

/-- An accepted envelope within the data of the instruction is checked, and compared up to the end
of its payload. -/
theorem exists_assembled {m : ParsedSolanaMessage} (hm : parseSolanaMessage envelope = .ok m)
    (hdata : dominionIx.data = front ++ envelope ++ back) (hfits : front.length + 102 < 65536)
    (hn : 3 + ataIxs.length < 65536) :
    ∃ ixs ed25519Ix o, assembleLazerOracleIxs cb dominionIx envelope ataIxs = .ok ixs ∧
      ixs[ED25519_IX_INDEX]? = some ed25519Ix ∧ ed25519Ix.programId = ED25519_PROGRAM_ID ∧
      ed25519Ix.data.head? = some 1 ∧ SignatureOffsets.read ed25519Ix.data = o ∧
      Selects o ixs dominionIx m ∧
      compared o dominionIx = envelope.take (102 + m.payload.length) := by
  have hp := parsed hm
  have hlen := hp.fits
  have hne : envelope ≠ [] := List.ne_nil_of_length_pos (by omega)
  obtain ⟨front', back', he, hle, hstart⟩ := indexOfSubarray_append front back hne
  rw [← hdata] at hstart
  rw [he] at hdata
  obtain ⟨ix, hbuild, hprogram, hhead, ho⟩ := build_ok hm hstart (by omega) hn
  have hcut : ∀ {i j}, j ≤ envelope.length →
      slice dominionIx.data (front'.length + i) (front'.length + j) = slice envelope i j := by
    intro i j hj
    rw [hdata, slice_append _ _ _ hj]
  have hlast : (computeBudgetIxs cb ++ [ix] ++ ataIxs).length = 3 + ataIxs.length := by
    rw [List.length_append]
    rfl
  refine ⟨computeBudgetIxs cb ++ [ix] ++ ataIxs ++ [dominionIx], ix, _, ?_, rfl, hprogram, hhead,
    ho, ?_, ?_⟩
  · rw [assemble_eq, hbuild]
    rfl
  · refine ⟨?_, ?_, rfl, rfl, Nat.lt_add_right _ (by norm_num), ?_, ?_, ?_, Nat.le_add_left _ _⟩
    · rw [List.length_append, hlast]
      rfl
    · change _[3 + ataIxs.length]? = _
      rw [← hlast]
      exact List.getElem?_concat_length
    · exact (hcut (i := 4) (j := 68) (by omega)).trans hp.signature.symm
    · exact (hcut (i := 68) (j := 100) (by omega)).trans hp.publicKey.symm
    · change slice _ (front'.length + 102) (front'.length + 102 + m.payload.length) = _
      rw [Nat.add_assoc, hcut hlen, ← hp.payload]
  · change slice _ (front'.length + 4 - 4) (front'.length + 102 + m.payload.length) = _
    rw [Nat.add_assoc]
    exact hcut (i := 0) hlen

/-- The assembled transaction has one check, of the message that the program prices by. The bytes
compared are all that the program is handed exactly where nothing follows the payload. -/
def Covered (cb : ComputeBudgetProgram) (dominionIx : TransactionInstruction)
    (envelope : List UInt8) (ataIxs : List TransactionInstruction) (messageData : List UInt8) :
    Prop :=
  ∃ ixs ed25519Ix m o, assembleLazerOracleIxs cb dominionIx envelope ataIxs = .ok ixs ∧
    ixs[ED25519_IX_INDEX]? = some ed25519Ix ∧ ed25519Ix.programId = ED25519_PROGRAM_ID ∧
    ed25519Ix.data.head? = some 1 ∧ SignatureOffsets.read ed25519Ix.data = o ∧
    parseSolanaMessage envelope = .ok m ∧ Selects o ixs dominionIx m ∧
    (unwrapSolanaPayload.run' messageData : Except LazerError (List UInt8)) = .ok m.payload ∧
    (compared o dominionIx = messageData ↔ messageData.length = 102 + m.payload.length)

/-- For every accepted envelope within the data of the instruction and every number of other
instructions that leaves its index two bytes, the assembled check covers the message. -/
theorem signature_check_covers (hm : lazerMessageData envelope = .ok messageData)
    (hdata : dominionIx.data = front ++ envelope ++ back) (hfits : front.length + 102 < 65536)
    (hn : 3 + ataIxs.length < 65536) : Covered cb dominionIx envelope ataIxs messageData := by
  obtain ⟨rfl, m, hm⟩ := lazerMessageData_ok hm
  have hp := parsed hm
  obtain ⟨ixs, ix, o, hixs, hix, hprogram, hhead, ho, hselects, hcompared⟩ :=
    exists_assembled hm hdata hfits hn
  exact ⟨ixs, ix, m, o, hixs, hix, hprogram, hhead, ho, hm, hselects, hp.unwrap,
    by rw [hcompared, take_eq_self_iff hp.fits]⟩

end Transaction

section Examples

/-- A compute budget of empty instructions. -/
def emptyBudget : ComputeBudgetProgram :=
  ⟨fun _ => ⟨Bytes32.zero, [], []⟩, fun _ => ⟨Bytes32.zero, [], []⟩⟩

/-- A message with three bytes of payload, and bytes after it. -/
def envelopeWith (slack : List UInt8) : List UInt8 := Reference.signedMessage [1, 2, 3] ++ slack

/-- An instruction with the message after its discriminator. -/
def instructionWith (slack : List UInt8) : TransactionInstruction :=
  ⟨Bytes32.zero, [], List.replicate 8 9 ++ envelopeWith slack ++ [7]⟩

theorem signature_check_covers_instructionWith :
    Covered emptyBudget (instructionWith []) (envelopeWith []) [⟨Bytes32.zero, [], []⟩]
      (envelopeWith []) :=
  signature_check_covers (by decide +kernel) rfl (by decide) (by decide)

/-- With a byte after the payload the bytes compared are not the whole message, and with 65533 other
instructions the index of the last one does not fit. -/
theorem signature_check_gaps :
    (lazerMessageData (envelopeWith [0]) = .ok (envelopeWith [0]) ∧
      ∃ ixs ed25519Ix, assembleLazerOracleIxs emptyBudget (instructionWith [0]) (envelopeWith [0])
          [] = .ok ixs ∧ ixs[ED25519_IX_INDEX]? = some ed25519Ix ∧
        compared (SignatureOffsets.read ed25519Ix.data) (instructionWith [0]) ≠ envelopeWith [0]) ∧
    lazerMessageData (envelopeWith []) = .ok (envelopeWith []) ∧
      assembleLazerOracleIxs emptyBudget (instructionWith []) (envelopeWith [])
        (List.replicate 65533 ⟨Bytes32.zero, [], []⟩) = .error (.rangeError 65536) := by
  have hparse : ∀ slack ∈ [[], [0]], parseSolanaMessage (envelopeWith slack) =
      .ok ⟨List.replicate 64 1, List.replicate 32 1, [1, 2, 3]⟩ := by decide +kernel
  have hstart : indexOfSubarray (instructionWith []).data (envelopeWith []) = some 8 := by
    decide +kernel
  have hassembled := @exists_assembled emptyBudget (instructionWith [0]) (envelopeWith [0])
  obtain ⟨ixs, ix, _, hixs, hix, -, -, rfl, -, hcompared⟩ :=
    hassembled (hparse [0] (by decide)) rfl (by decide) (by decide : 3 + [].length < 65536)
  refine ⟨⟨by decide +kernel, ixs, ix, hixs, hix, ?_⟩, by decide +kernel, ?_⟩
  · rw [hcompared]
    decide +kernel
  · rw [assemble_eq, List.length_replicate,
      build_out_of_range (hparse [] (by decide)) hstart (by norm_num) (by norm_num)]
    rfl

end Examples

end DominionSilver
