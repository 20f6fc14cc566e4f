import DominionSilver.Spec.LazerTx
import DominionSilver.Proofs.Clients

/-! The public app reads a fee exemption out of the bytes of its account and charges the premium
that the program charges. The offsets that the app derives are where the program puts the fields,
the bytes of a signed word come back as the word, and a double that holds the expiry compares with
the time as the expiry does. -/

namespace DominionSilver

open Bytes Doubles LazerTx

section Layout

theorem flags_offset : FEE_EXEMPT_FLAGS_OFFSET = .ok 40 := rfl

theorem expiresAt_offset : FEE_EXEMPT_EXPIRES_AT_OFFSET = .ok 82 := rfl

variable (a : StoredFeeExempt)

/-- What the program puts before the flags and before the expiry. -/
def beforeFlags : List UInt8 := StoredFeeExempt.DISCRIMINATOR ++ a.wallet.bytes

def beforeExpiry : List UInt8 :=
  beforeFlags a ++ [a.flags] ++ toSignedLE 8 a.addedAt ++ a.addedBy.bytes ++ [a.version]

@[simp] theorem length_beforeFlags : (beforeFlags a).length = 40 := by
  simp [beforeFlags, a.wallet.size]

@[simp] theorem length_beforeExpiry : (beforeExpiry a).length = 82 := by
  simp [beforeExpiry, a.addedBy.size]

theorem serialize_flags : ∃ rest, a.serialize = beforeFlags a ++ a.flags :: rest :=
  ⟨toSignedLE 8 a.addedAt ++ a.addedBy.bytes ++ [a.version] ++ toSignedLE 8 a.expiresAt ++
    a.reserved, by simp [StoredFeeExempt.serialize, beforeFlags]⟩

theorem serialize_expiry :
    a.serialize = beforeExpiry a ++ toSignedLE 8 a.expiresAt ++ a.reserved := by
  simp [StoredFeeExempt.serialize, beforeExpiry, beforeFlags]

theorem length_serialize : a.serialize.length = 114 := by
  simp [serialize_expiry, a.reserved_size]

end Layout

section Decoders

variable {a : StoredFeeExempt} {data : List UInt8}

theorem decodeFeeExemptFlags_serialize : decodeFeeExemptFlags a.serialize = .ok (some a.flags) := by
  obtain ⟨rest, hrest⟩ := serialize_flags a
  have hlong : ¬ a.serialize.length < 40 + 1 := by rw [length_serialize]; omega
  have hread : a.serialize.getD 40 0 = a.flags := by
    rw [hrest, ← length_beforeFlags a]
    simp
  simp only [decodeFeeExemptFlags, flags_offset, bind, Except.bind, if_neg hlong, hread]
  rfl

theorem signed_emod {z : ℤ} (h : -2 ^ 63 ≤ z ∧ z < 2 ^ 63) {v : ℕ} (hv : (v : ℤ) = z % 256 ^ 8) :
    (if 1 <<< 63 ≤ v then (v : ℤ) - (1 <<< 64 : ℕ) else v) = z := by
  have hhalf : (1 : ℕ) <<< 63 = 2 ^ 63 := rfl
  have hsize : (1 : ℕ) <<< 64 = 256 ^ 8 := rfl
  rw [hhalf, hsize]
  split_ifs <;> omega

theorem decodeFeeExemptExpiry_serialize (h : -2 ^ 63 ≤ a.expiresAt ∧ a.expiresAt < 2 ^ 63) :
    decodeFeeExemptExpiry a.serialize =
      .ok (some (PublicApp.decodeFeeExemptExpiry a.toFeeExemptAccount)) := by
  have hlong : ¬ a.serialize.length < 82 + 8 := by rw [length_serialize]; omega
  have hread := foldr_ofLE (beforeExpiry a) (toSignedLE 8 a.expiresAt) a.reserved
  rw [length_toSignedLE, ← serialize_expiry, length_beforeExpiry] at hread
  have hsigned := signed_emod h (ofLE_toSignedLE 8 a.expiresAt)
  simp only [decodeFeeExemptExpiry, expiresAt_offset, bind, Except.bind, if_neg hlong, hread,
    hsigned]
  rfl

theorem decodeFeeExemptFlags_short (h : data.length < 41) :
    decodeFeeExemptFlags data = .ok none := by
  simp only [decodeFeeExemptFlags, flags_offset, bind, Except.bind, if_pos h]
  rfl

theorem decodeFeeExemptExpiry_short (h : data.length < 90) :
    decodeFeeExemptExpiry data = .ok none := by
  simp only [decodeFeeExemptExpiry, expiresAt_offset, bind, Except.bind, if_pos h]
  rfl

end Decoders

section Charged

variable {e : FeeExemptAccount} {bps : UInt16} {side : Side} {now : ℤ}

theorem effectivePremiumBps_wallet :
    ((effectivePremiumBps bps (some e) e.wallet side now).toNat : ℤ) =
      if e.expiresAt = 0 ∨ e.expiresAt ≤ now then (bps.toNat : ℤ)
      else if e.flags &&& side.bit ≠ 0 then 0 else (bps.toNat : ℤ) := by
  have hexempts : e.exempts e.wallet side now = true ↔
      e.flags &&& side.bit ≠ 0 ∧ ¬ (e.expiresAt = 0 ∨ e.expiresAt ≤ now) := by
    simp [FeeExemptAccount.exempts, FeeExemptAccount.isExpired, Side.isSetIn]
  simp only [effectivePremiumBps, hexempts]
  by_cases hexpired : e.expiresAt = 0 ∨ e.expiresAt ≤ now
  · rw [if_pos hexpired, if_neg fun h => h.2 hexpired]
  · by_cases hflag : e.flags &&& side.bit ≠ 0
    · rw [if_neg hexpired, if_pos hflag, if_pos ⟨hflag, hexpired⟩]; rfl
    · rw [if_neg hexpired, if_neg hflag, if_neg fun h => hflag h.1]

theorem effectivePremiumBps_decoded {nowSecs : ℤ} (h : Safe e.expiresAt)
    (hnow : nowSecs = now ∨ nowSecs = ofInt now) :
    PublicApp.effectivePremiumBps bps.toNat (some e.flags)
        (some (PublicApp.decodeFeeExemptExpiry e)) side nowSecs =
      (effectivePremiumBps bps (some e) e.wallet side now).toNat := by
  have hpast : e.expiresAt ≤ nowSecs ↔ e.expiresAt ≤ now := by
    rcases hnow with rfl | rfl
    · rfl
    · exact le_ofInt_iff h
  simp only [PublicApp.effectivePremiumBps, PublicApp.decodeFeeExemptExpiry, ofInt_of_safe h, hpast,
    effectivePremiumBps_wallet]
  cases side <;> rfl

/-- The premium that the app works out from the bytes of an exemption is the one that the program
charges its wallet, on either side and at any time, whether or not a double holds the time. Where
the bytes end before a field the app reads none, and the configured premium stands. -/
theorem decodedPremiumBps_exact {a : StoredFeeExempt} (h : Safe a.expiresAt) :
    (∀ (bps : UInt16) (side : Side) (now nowSecs : ℤ), nowSecs = now ∨ nowSecs = ofInt now →
      decodedPremiumBps bps.toNat a.serialize side nowSecs =
        .ok ((effectivePremiumBps bps (some a.toFeeExemptAccount) a.wallet side now).toNat : ℤ)) ∧
      (∀ data : List UInt8, data.length < 41 → decodeFeeExemptFlags data = .ok none) ∧
      (∀ data : List UInt8, data.length < 90 → decodeFeeExemptExpiry data = .ok none) ∧
      ∀ (data : List UInt8) (configuredBps : ℤ) (side : Side) (nowSecs : ℤ), data.length < 90 →
        decodedPremiumBps configuredBps data side nowSecs = .ok configuredBps := by
  refine ⟨?_, fun _ => decodeFeeExemptFlags_short, fun _ => decodeFeeExemptExpiry_short, ?_⟩
  · intro bps side now nowSecs hnow
    obtain ⟨hlow, hhigh⟩ := h
    simp only [decodedPremiumBps, decodeFeeExemptFlags_serialize,
      decodeFeeExemptExpiry_serialize (a := a) ⟨by omega, by omega⟩, bind, Except.bind, pure,
      Except.pure]
    rw [effectivePremiumBps_decoded ⟨hlow, hhigh⟩ hnow]
  · intro data configuredBps side nowSecs hshort
    obtain ⟨flags, hflags⟩ : ∃ flags, decodeFeeExemptFlags data = .ok flags := by
      simp only [decodeFeeExemptFlags, flags_offset, bind, Except.bind]
      split_ifs
      · exact ⟨none, rfl⟩
      · exact ⟨_, rfl⟩
    simp only [decodedPremiumBps, hflags, decodeFeeExemptExpiry_short hshort, bind, Except.bind]
    cases flags <;> rfl

theorem decodedPremiumBps_lapsing :
    decodedPremiumBps 150 (StoredFeeExempt.serialize
        ⟨lapsingExemption, 1, List.replicate 24 0, List.length_replicate⟩) .redeem 49999 = .ok 0 :=
  ((decodedPremiumBps_exact (a := ⟨lapsingExemption, 1, List.replicate 24 0,
    List.length_replicate⟩) (by decide)).1 150 .redeem 49999 49999 (.inl rfl)).trans
      (by decide +kernel)

end Charged

end DominionSilver
