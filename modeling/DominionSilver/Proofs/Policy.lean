import DominionSilver.Proofs.Grammar
import DominionSilver.Sanity.Errors
import Mathlib.Algebra.Order.Floor.Semifield
import Mathlib.Data.Rat.Floor

/-! The price policy, read as arithmetic: which prices it accepts and at what value. The price at
nine decimals is a rational number that the program takes the floor of. -/

namespace DominionSilver

open Checked Bytes

namespace LazerPrice

/-- The price and the confidence are 64-bit words. -/
structure Typed (p : LazerPrice) : Prop where
  price : I64 p.price
  confidence : ∀ conf, p.confidence = some conf → I64 conf

/-- The price at nine decimals. -/
def scaled (p : LazerPrice) : ℚ := p.price * 10 ^ (PRICE_SCALE + p.exponent)

end LazerPrice

/-- What the policy asks of a price, with `mark` the timestamp of the last print used. -/
structure Acceptable (p : LazerPrice) (params : LazerPolicyParams) (mark : UInt64) : Prop where
  positive : 0 < p.price
  confident : ∃ conf, p.confidence = some conf ∧ 0 < conf ∧
    conf * 10000 ≤ p.price * params.maxConfidenceBps.toNat
  published : max params.minPublishers MIN_PUBLISHERS_FLOOR_HARD ≤ p.publisherCount
  printed : p.feedUpdateTimestampUs = p.timestampUs
  inTime : p.feedUpdateTimestampUs.toNat ≤
    min (params.nowUs.toNat + params.futureSkewUs.toNat) (2 ^ 64 - 1)
  fresh : params.nowUs.toNat - p.feedUpdateTimestampUs.toNat ≤ params.maxStalenessUs.toNat
  unused : mark < p.feedUpdateTimestampUs
  exponent : |PRICE_SCALE + p.exponent| ≤ 18
  band : params.minPriceScaled ≤ ⌊p.scaled⌋₊ ∧ ⌊p.scaled⌋₊ ≤ params.maxPriceScaled

section Scaling

theorem toNat_lt_of_I64 {z : ℤ} (h : I64 z) : z.toNat < 2 ^ 63 := by
  have := h.2
  omega

theorem mul_pow_lt {n k : ℕ} (hn : n < 2 ^ 63) (hk : k ≤ 18) : n * 10 ^ k < 2 ^ 128 := by
  have hpow : 10 ^ k ≤ 10 ^ 18 := Nat.pow_le_pow_right (by norm_num) hk
  calc n * 10 ^ k ≤ n * 10 ^ 18 := Nat.mul_le_mul_left n hpow
    _ < 2 ^ 128 := by omega

theorem floor_mul_zpow (n : ℕ) (e : ℤ) :
    ⌊(n : ℚ) * 10 ^ e⌋₊ = if 0 ≤ e then n * 10 ^ e.toNat else n / 10 ^ e.natAbs := by
  split_ifs with h
  · obtain ⟨k, rfl⟩ := Int.eq_ofNat_of_zero_le h
    rw [Int.toNat_natCast, zpow_natCast]
    exact_mod_cast Nat.floor_natCast (n * 10 ^ k)
  · obtain ⟨k, rfl⟩ : ∃ k : ℕ, e = -k := ⟨e.natAbs, by omega⟩
    rw [Int.natAbs_neg, Int.natAbs_natCast, zpow_neg, zpow_natCast, ← div_eq_mul_inv]
    exact_mod_cast Nat.floor_div_eq_div (K := ℚ) n (10 ^ k)

theorem scaling_bind {β : Type} {n : ℕ} {e : ℤ} (hn : n < 2 ^ 63) (he : e.natAbs ≤ 18)
    (f : ℕ → Except LazerPolicyError β) :
    (if 0 ≤ e then okOr (checkedU128 (n * 10 ^ e.toNat)) .overflow >>= f
      else .ok (n / 10 ^ e.natAbs) >>= f) = f ⌊(n : ℚ) * 10 ^ e⌋₊ := by
  rw [floor_mul_zpow]
  split_ifs with h
  · rw [checkedU128_of_lt (mul_pow_lt hn (by omega))]
    rfl
  · rfl

end Scaling

section Policy

variable {p : LazerPrice} {params : LazerPolicyParams} {mark : UInt64}

theorem scaled_eq (h : 0 < p.price) :
    p.scaled = (p.price.toNat : ℚ) * 10 ^ (PRICE_SCALE + p.exponent) := by
  rw [LazerPrice.scaled]
  congr 1
  exact_mod_cast (Int.toNat_of_nonneg h.le).symm

theorem confidence_lt {conf : ℤ} (h : I64 conf) : conf.toNat * 10000 < 2 ^ 128 := by
  have := toNat_lt_of_I64 h
  omega

theorem tolerance_lt (hp : I64 p.price) (bps : UInt16) : p.price.toNat * bps.toNat < 2 ^ 128 := by
  calc p.price.toNat * bps.toNat < 2 ^ 63 * 2 ^ 16 :=
        Nat.mul_lt_mul'' (toNat_lt_of_I64 hp) bps.toNat_lt
    _ < 2 ^ 128 := by norm_num

theorem le_saturatingAdd_iff {a b c : UInt64} :
    a ≤ saturatingAdd b c ↔ a.toNat ≤ min (b.toNat + c.toNat) (2 ^ 64 - 1) := by
  rw [UInt64.le_iff_toNat_le, ← word_uint64 (saturatingAdd b c), toNat_saturatingAdd]
  rfl

theorem saturatingSub_le_iff {a b c : UInt64} :
    saturatingSub a b ≤ c ↔ a.toNat - b.toNat ≤ c.toNat := by
  rw [UInt64.le_iff_toNat_le, ← word_uint64 (saturatingSub a b), toNat_saturatingSub]
  rfl

theorem tolerance_iff {price conf : ℤ} (hprice : 0 < price) (hconf : 0 < conf) (bps : UInt16) :
    conf.toNat * 10000 ≤ price.toNat * bps.toNat ↔ conf * 10000 ≤ price * bps.toNat := by
  obtain ⟨n, rfl⟩ := Int.eq_ofNat_of_zero_le hprice.le
  obtain ⟨m, rfl⟩ := Int.eq_ofNat_of_zero_le hconf.le
  rw [Int.toNat_natCast, Int.toNat_natCast]
  exact_mod_cast Iff.rfl

theorem natAbs_le_iff {e : ℤ} : e.natAbs ≤ 18 ↔ |e| ≤ 18 := by
  rw [Int.abs_eq_natAbs]
  exact_mod_cast Iff.rfl

theorem priceFromLazer_iff (hp : p.Typed) {r : LazerPriceResult} :
    priceFromLazer p params mark = .ok r ↔
      Acceptable p params mark ∧ r = ⟨⌊p.scaled⌋₊, p.feedUpdateTimestampUs⟩ := by
  simp only [priceFromLazer, bind_ok, guardOr_ok, okOr_ok, exists_unit, checkedU128_eq_some]
  constructor
  · rintro ⟨hpos, conf, hconf, hcpos, _, ⟨-, rfl⟩, _, ⟨-, rfl⟩, htol, hpub, hprint, htime, hfresh,
      hmark, hexp, h⟩
    rw [scaling_bind (toNat_lt_of_I64 hp.price) hexp, ← scaled_eq hpos] at h
    simp only [bind_ok, guardOr_ok, exists_unit, pure_ok] at h
    obtain ⟨hband, rfl⟩ := h
    exact ⟨⟨hpos, ⟨conf, hconf, hcpos, (tolerance_iff hpos hcpos _).1 htol⟩, hpub, hprint,
      le_saturatingAdd_iff.1 htime, saturatingSub_le_iff.1 hfresh, hmark, natAbs_le_iff.1 hexp,
      hband⟩, rfl⟩
  · rintro ⟨⟨hpos, ⟨conf, hconf, hcpos, htol⟩, hpub, hprint, htime, hfresh, hmark, hexp, hband⟩,
      rfl⟩
    have hexp := natAbs_le_iff.2 hexp
    refine ⟨hpos, conf, hconf, hcpos, _, ⟨confidence_lt (hp.confidence conf hconf), rfl⟩, _,
      ⟨tolerance_lt hp.price _, rfl⟩, (tolerance_iff hpos hcpos _).2 htol, hpub, hprint,
      le_saturatingAdd_iff.2 htime, saturatingSub_le_iff.2 hfresh, hmark, hexp, ?_⟩
    rw [scaling_bind (toNat_lt_of_I64 hp.price) hexp, ← scaled_eq hpos]
    simpa only [bind_ok, guardOr_ok, exists_unit, pure_ok, and_true] using hband

theorem priceFromLazer_ne_overflow (hp : p.Typed) :
    priceFromLazer p params mark ≠ .error .overflow := by
  intro h
  simp only [priceFromLazer, bind_error, guardOr_error, guardOr_ok, okOr_error, okOr_ok,
    exists_unit, reduceCtorEq, and_false, false_or, checkedU128_eq_some, and_true] at h
  obtain ⟨hpos, conf, hconf, hcpos, h | ⟨_, ⟨-, rfl⟩, h | ⟨_, ⟨-, rfl⟩, -, -, -, -, -, -, hexp,
    h⟩⟩⟩ := h
  · rw [checkedU128_of_lt (confidence_lt (hp.confidence conf hconf))] at h
    cases h
  · rw [checkedU128_of_lt (tolerance_lt hp.price _)] at h
    cases h
  · rw [scaling_bind (toNat_lt_of_I64 hp.price) hexp] at h
    simp [bind_error, guardOr_error, pure, Except.pure] at h

/-- The policy accepts a price exactly where every guard holds of its numbers, at the floor of the
price at nine decimals and the time of the print. Its own arithmetic never fails. -/
theorem price_policy_exact (hp : p.Typed) (params : LazerPolicyParams) (mark : UInt64) :
    (∀ r, priceFromLazer p params mark = .ok r ↔
      Acceptable p params mark ∧ r = ⟨⌊p.scaled⌋₊, p.feedUpdateTimestampUs⟩) ∧
    priceFromLazer p params mark ≠ .error .overflow :=
  ⟨fun _ => priceFromLazer_iff hp, priceFromLazer_ne_overflow hp⟩

/-- Thirty dollars, a hundredth of a percent either way. -/
def thirtyDollars : LazerPrice :=
  ⟨3000000000, -8, some 300000, 3, 2999000000, LAZER_CHANNEL_ID, 2999000000⟩

theorem price_policy_exact_thirtyDollars :
    Acceptable thirtyDollars (policyParams Reference.start.config 3000) 0 ∧
      (⟨30000000000, 2999000000⟩ : LazerPriceResult) =
        ⟨⌊thirtyDollars.scaled⌋₊, thirtyDollars.feedUpdateTimestampUs⟩ :=
  ((@price_policy_exact thirtyDollars ⟨by decide, by decide⟩ _ 0).1 _).1 (by decide +kernel)

end Policy

section Reader

theorem i64_asI64 (v : UInt64) : I64 (asI64 v) := by
  have hv := v.toNat_lt
  unfold asI64 I64
  split_ifs <;> omega

theorem extractFeedPrice_typed {payload : List UInt8} {feed : UInt32} {channel : UInt8}
    {p : LazerPrice} (h : extractFeedPrice payload feed channel = .ok p) : p.Typed := by
  simp only [extractFeedPrice, bind_ok, guardOr_ok, okOr_ok, exists_unit, pure_ok, Prod.exists,
    readPayload_iff] at h
  obtain ⟨-, _, _, found, _, ⟨m, rfl, -, -, -, hfound, -⟩, t, rfl, price, hprice, -, exponent, -,
    count, -, hseen, updated, -, rfl⟩ := h
  obtain ⟨f, -, rfl⟩ := List.map_eq_singleton_iff.1 hfound.symm
  obtain ⟨v, -, hv⟩ := shown_price.1 hprice
  have hconf : f.shown.seenConfidence = some f.shown.confidence := by
    rw [Target.seenConfidence, if_pos hseen]
  obtain ⟨c, -, hc⟩ := shown_confidence.1 hconf
  constructor
  · rw [← Option.some.inj hv]
    exact i64_asI64 v
  · intro conf hsome
    rw [← Option.some.inj hc] at hsome
    obtain rfl := Option.some.inj (Option.ite_none_left_eq_some.1 hsome).2
    exact i64_asI64 c

/-- The program's error for a result that does not fit. -/
abbrev arithmeticOverflow : Error := .dominion .arithmeticOverflow

theorem readSilverPriceLazer_ne_overflow (rt : Runtime) (a : LazerAccounts) (c : ConfigAccount)
    (now : ℤ) : readSilverPriceLazer rt a c now ≠ .error arithmeticOverflow := by
  intro h
  simp only [readSilverPriceLazer, bind_error, mapErr_error, mapErr_ok] at h
  rcases h with h | ⟨payload, -, ⟨d, -, h⟩ | ⟨p, hp, d, hd, h⟩⟩
  · exact verifyAndGetPayload_ne (by decide) a h
  · cases d <;> simp [mapParseErr] at h
  · obtain rfl : d = .overflow := by cases d <;> simp [mapPolicyErr] at h ⊢
    exact priceFromLazer_ne_overflow (extractFeedPrice_typed hp) hd

end Reader

end DominionSilver
