import DominionSilver.Sanity.Quotes

/-! No sequence of mints and redeems at one price takes out more than it puts in.
A mint rounds the SILV down, a redeem rounds the USDC down, so at the price scale
the gross value redeemed stays below what the redeemed SILV is worth, and the
SILV minted below what was paid for it. -/

namespace DominionSilver

open Checked

/-- A mint at price `p` as step 7 of its handler works it out. -/
structure MintFill (p : ℕ) where
  amount : UInt64
  premiumBps : UInt16
  fee : UInt64
  net : UInt64
  silv : UInt64
  bounded : premiumBps ≤ 10000
  fee_ok : feeFromAmount amount premiumBps = .ok fee
  net_ok : checkedSub amount fee = some net
  silv_ok : mintSilvOut net p = .ok silv

/-- A redeem at price `p` as step 4 of its handler works it out. -/
structure RedeemFill (p : ℕ) where
  silv : UInt64
  premiumBps : UInt16
  gross : UInt64
  fee : UInt64
  toUser : UInt64
  bounded : premiumBps ≤ 10000
  gross_ok : silvToUsdcAtOracle silv p = .ok gross
  fee_ok : feeFromAmount gross premiumBps = .ok fee
  toUser_ok : checkedSub gross fee = some toUser

theorem MintFill.of_quote {c : ConfigAccount} {premiumBps : UInt16} {p : ℕ}
    {supply amountUsdc minSilvOut : UInt64} {q : MintQuote} (hb : premiumBps ≤ 10000)
    (h : quoteMint c premiumBps p supply amountUsdc minSilvOut = .ok q) :
    ∃ m : MintFill p, m.amount = amountUsdc ∧ m.fee = q.feeUsdc ∧ m.net = q.netUsdc ∧
      m.silv = q.silvOut := by
  obtain ⟨hfee, hnet, hout⟩ := quoteMint_steps h
  exact ⟨⟨amountUsdc, premiumBps, q.feeUsdc, q.netUsdc, q.silvOut, hb, hfee, hnet, hout⟩, rfl, rfl,
    rfl, rfl⟩

theorem RedeemFill.of_quote {c : ConfigAccount} {premiumBps : UInt16} {p : ℕ}
    {treasuryBalance : UInt64} {now : ℤ} {amountSilv minUsdcOut : UInt64} {q : RedeemQuote}
    (hb : premiumBps ≤ 10000)
    (h : quoteRedeem c premiumBps p treasuryBalance now amountSilv minUsdcOut = .ok q) :
    ∃ r : RedeemFill p, r.silv = amountSilv ∧ r.gross = q.grossUsdc ∧ r.fee = q.feeUsdc ∧
      r.toUser = q.toUserUsdc := by
  obtain ⟨hgross, hfee, hnet⟩ := quoteRedeem_steps h
  exact ⟨⟨amountSilv, premiumBps, q.grossUsdc, q.feeUsdc, q.toUserUsdc, hb, hgross, hfee, hnet⟩,
    rfl, rfl, rfl, rfl⟩

inductive Fill (p : ℕ)
  | mint (m : MintFill p)
  | redeem (r : RedeemFill p)

namespace Fill

variable {p : ℕ}

/-- SILV issued and burned. -/
def silvIn : Fill p → ℕ
  | mint m => m.silv.toNat
  | redeem _ => 0

def silvOut : Fill p → ℕ
  | mint _ => 0
  | redeem r => r.silv.toNat

/-- The net amount of a mint. -/
def net : Fill p → ℕ
  | mint m => m.net.toNat
  | redeem _ => 0

/-- The gross value of a redeem. -/
def gross : Fill p → ℕ
  | mint _ => 0
  | redeem r => r.gross.toNat

/-- USDC from the trader, and to him. -/
def paidIn : Fill p → ℕ
  | mint m => m.amount.toNat
  | redeem _ => 0

def paidOut : Fill p → ℕ
  | mint _ => 0
  | redeem r => r.toUser.toNat

/-- What the treasury gains where the premium is routed to the fee vault. -/
def treasuryGain : Fill p → ℤ
  | mint m => m.amount.toNat - m.fee.toNat
  | redeem r => -(r.toUser.toNat + r.fee.toNat)

end Fill

/-- The sum of a quantity over a sequence of operations. -/
def sumOf {p : ℕ} (f : Fill p → ℕ) (fs : List (Fill p)) : ℕ := (fs.map f).sum

section Rounding

variable {p : ℕ}

theorem MintFill.net_add_fee (m : MintFill p) : m.net.toNat + m.fee.toNat = m.amount.toNat :=
  checkedSub_eq_some.1 m.net_ok

theorem RedeemFill.toUser_add_fee (r : RedeemFill p) :
    r.toUser.toNat + r.fee.toNat = r.gross.toNat :=
  checkedSub_eq_some.1 r.toUser_ok

theorem silvIn_mul_le (f : Fill p) : f.silvIn * p ≤ f.net * 1000000000 := by
  cases f with
  | mint m =>
    change m.silv.toNat * p ≤ _
    rw [(mintSilvOut_ok m.silv_ok).2]
    exact Nat.div_mul_le_self _ _
  | redeem r => simp [Fill.silvIn]

theorem gross_mul_le (f : Fill p) : f.gross * 1000000000 ≤ f.silvOut * p := by
  cases f with
  | mint m => simp [Fill.gross]
  | redeem r =>
    change r.gross.toNat * 1000000000 ≤ _
    rw [silvToUsdcAtOracle_ok r.gross_ok]
    exact Nat.div_mul_le_self _ _

theorem net_le_paidIn (f : Fill p) : f.net ≤ f.paidIn := by
  cases f with
  | mint m => exact Nat.le.intro m.net_add_fee
  | redeem r => exact le_rfl

theorem paidOut_le_gross (f : Fill p) : f.paidOut ≤ f.gross := by
  cases f with
  | mint m => exact le_rfl
  | redeem r => exact Nat.le.intro r.toUser_add_fee

theorem treasuryGain_eq (f : Fill p) : f.treasuryGain = f.net - f.gross := by
  cases f with
  | mint m =>
    have := m.net_add_fee
    simp only [Fill.treasuryGain, Fill.net, Fill.gross]
    omega
  | redeem r =>
    have := r.toUser_add_fee
    simp only [Fill.treasuryGain, Fill.net, Fill.gross]
    omega

theorem sum_treasuryGain (fs : List (Fill p)) :
    (fs.map Fill.treasuryGain).sum = (sumOf Fill.net fs : ℤ) - sumOf Fill.gross fs := by
  induction fs with
  | nil => rfl
  | cons f fs ih =>
    simp only [sumOf, List.map_cons, List.sum_cons, treasuryGain_eq, Nat.cast_add] at ih ⊢
    omega

theorem sumOf_mul_le {f g : Fill p → ℕ} {a b : ℕ} (h : ∀ x, f x * a ≤ g x * b)
    (fs : List (Fill p)) : sumOf f fs * a ≤ sumOf g fs * b := by
  unfold sumOf
  rw [← List.sum_map_mul_right, ← List.sum_map_mul_right]
  exact List.sum_le_sum fun x _ => h x

/-- The two roundings of a round trip lose less than one SILV unit's worth and one USDC unit. -/
theorem round_trip_loss {net silv gross s : ℕ} (hp : 0 < p) (hs : 0 < s)
    (hsilv : silv = net * s / p) (hgross : gross = silv * p / s) :
    net - gross ≤ (p + s - 1) / s := by
  have hmint : net * s < silv * p + p := hsilv ▸ Nat.lt_div_mul_add hp
  have hredeem : silv * p < gross * s + s := hgross ▸ Nat.lt_div_mul_add hs
  rw [Nat.le_div_iff_mul_le hs, Nat.sub_mul]
  omega

end Rounding

/-- Whoever redeems no more SILV than he minted takes out no more value than he put in, pays in at
least what he is paid, and costs the treasury nothing; one round trip leaves it at most a rounded
up `p / 10 ^ 9`. -/
theorem no_profitable_trading (p : ℕ) :
    (∀ fs : List (Fill p), sumOf Fill.silvOut fs ≤ sumOf Fill.silvIn fs →
      sumOf Fill.gross fs ≤ sumOf Fill.net fs ∧ sumOf Fill.paidOut fs ≤ sumOf Fill.paidIn fs ∧
        0 ≤ (fs.map Fill.treasuryGain).sum) ∧
    ∀ (m : MintFill p) (r : RedeemFill p), r.silv = m.silv →
      0 ≤ (Fill.mint m).treasuryGain + (Fill.redeem r).treasuryGain ∧
        (Fill.mint m).treasuryGain + (Fill.redeem r).treasuryGain ≤
          ((p + 999999999) / 1000000000 : ℕ) := by
  have key : ∀ fs : List (Fill p), sumOf Fill.silvOut fs ≤ sumOf Fill.silvIn fs →
      sumOf Fill.gross fs ≤ sumOf Fill.net fs := fun fs h => by
    refine Nat.le_of_mul_le_mul_right (c := 1000000000) ?_ (by norm_num)
    calc sumOf Fill.gross fs * 1000000000
        ≤ sumOf Fill.silvOut fs * p := sumOf_mul_le gross_mul_le fs
      _ ≤ sumOf Fill.silvIn fs * p := Nat.mul_le_mul_right p h
      _ ≤ sumOf Fill.net fs * 1000000000 := sumOf_mul_le silvIn_mul_le fs
  refine ⟨fun fs h => ⟨key fs h, ?_, ?_⟩, ?_⟩
  · calc sumOf Fill.paidOut fs
        ≤ sumOf Fill.gross fs := List.sum_le_sum fun f _ => paidOut_le_gross f
      _ ≤ sumOf Fill.net fs := key fs h
      _ ≤ sumOf Fill.paidIn fs := List.sum_le_sum fun f _ => net_le_paidIn f
  · rw [sum_treasuryGain]
    exact sub_nonneg.2 (mod_cast key fs h)
  · intro m r h
    have hle : r.gross.toNat ≤ m.net.toNat := by
      simpa [sumOf, Fill.gross, Fill.net] using
        key [.mint m, .redeem r] (by simp [sumOf, Fill.silvIn, Fill.silvOut, h])
    obtain ⟨hp, hsilv⟩ := mintSilvOut_ok m.silv_ok
    have hloss := round_trip_loss hp (by norm_num) hsilv (h ▸ silvToUsdcAtOracle_ok r.gross_ok)
    simp only [treasuryGain_eq, Fill.net, Fill.gross]
    omega

def mintedFill : MintFill 31000000000 :=
  ⟨1000000000, 50, 5000000, 995000000, 32096774, by decide, by decide +kernel, by decide +kernel,
    by decide +kernel⟩

def redeemedFill : RedeemFill 31000000000 :=
  ⟨32096774, 50, 994999994, 4975000, 990024994, by decide, by decide +kernel, by decide +kernel,
    by decide +kernel⟩

theorem no_profitable_trading_redeemedFill :
    sumOf Fill.paidOut [.mint mintedFill, .redeem redeemedFill] ≤
        sumOf Fill.paidIn [.mint mintedFill, .redeem redeemedFill] ∧
      (Fill.mint mintedFill).treasuryGain + (Fill.redeem redeemedFill).treasuryGain ≤ 31 :=
  ⟨((no_profitable_trading 31000000000).1 [.mint mintedFill, .redeem redeemedFill]
      (by decide +kernel)).2.1,
    ((no_profitable_trading 31000000000).2 mintedFill redeemedFill rfl).2⟩

end DominionSilver
