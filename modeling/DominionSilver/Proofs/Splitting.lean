import DominionSilver.Library.Splits
import DominionSilver.Sanity.Quotes

/-! Splitting an operation never helps the user: the SILV issued and the USDC paid for the parts of
an amount come to at most those for the whole, and the premiums on the parts to at least its
premium. The premium is a share rounded up and a conversion a share rounded down, so this is the
algebra of splits at the scales of `math.rs`. -/

namespace DominionSilver

open Checked Splits

/-- The SILV a mint issues for `amountUsdc`: the premium off the top, then spot. -/
def issuedFor (premiumBps : UInt16) (price : ℕ) (amountUsdc : UInt64) : Result UInt64 := do
  let feeUsdc ← feeFromAmount amountUsdc premiumBps
  let netUsdc ← orOverflow (checkedSub amountUsdc feeUsdc)
  mintSilvOut netUsdc price

/-- The USDC a redemption of `amountSilv` pays: spot, then the premium off the top. -/
def paidFor (premiumBps : UInt16) (price : ℕ) (amountSilv : UInt64) : Result UInt64 := do
  let grossUsdc ← silvToUsdcAtOracle amountSilv price
  let feeUsdc ← feeFromAmount grossUsdc premiumBps
  orOverflow (checkedSub grossUsdc feeUsdc)

theorem issuedFor_of_quoteMint {c : ConfigAccount} {premiumBps : UInt16} {price : ℕ}
    {supply amountUsdc minSilvOut : UInt64} {q : MintQuote}
    (h : quoteMint c premiumBps price supply amountUsdc minSilvOut = .ok q) :
    issuedFor premiumBps price amountUsdc = .ok q.silvOut := by
  obtain ⟨hfee, hnet, hout⟩ := quoteMint_steps h
  simp only [issuedFor, bind_ok, orOverflow_ok]
  exact ⟨_, hfee, _, hnet, hout⟩

theorem paidFor_of_quoteRedeem {c : ConfigAccount} {premiumBps : UInt16} {price : ℕ}
    {treasuryBalance : UInt64} {now : ℤ} {amountSilv minUsdcOut : UInt64} {q : RedeemQuote}
    (h : quoteRedeem c premiumBps price treasuryBalance now amountSilv minUsdcOut = .ok q) :
    paidFor premiumBps price amountSilv = .ok q.toUserUsdc := by
  obtain ⟨hgross, hfee, hnet⟩ := quoteRedeem_steps h
  simp only [paidFor, bind_ok, orOverflow_ok]
  exact ⟨_, hgross, _, hfee, hnet⟩

/-- A mint of `amountUsdc` at a premium and a price is quoted `q` in some state. -/
def MintsFor (premiumBps : UInt16) (price : ℕ) (amountUsdc : UInt64) (q : MintQuote) : Prop :=
  ∃ c supply minSilvOut, quoteMint c premiumBps price supply amountUsdc minSilvOut = .ok q

def RedeemsFor (premiumBps : UInt16) (price : ℕ) (amountSilv : UInt64) (q : RedeemQuote) : Prop :=
  ∃ c treasuryBalance now minUsdcOut,
    quoteRedeem c premiumBps price treasuryBalance now amountSilv minUsdcOut = .ok q

/-- What an operation yields for the parts of an amount against what it yields for the whole: two
parts, any list of parts, and no part fails where the whole does not. -/
structure UnderSplits (worse : ℕ → ℕ → Prop) (op : UInt64 → Result UInt64) : Prop where
  pair : ∀ a b whole x y z : UInt64, whole.toNat = a.toNat + b.toNat → op a = .ok x →
    op b = .ok y → op whole = .ok z → worse (x.toNat + y.toNat) z.toNat
  split : ∀ (parts outs : List UInt64) (whole z : UInt64),
    whole.toNat = (parts.map UInt64.toNat).sum → List.Forall₂ (fun a x => op a = .ok x) parts outs →
    op whole = .ok z → worse (outs.map UInt64.toNat).sum z.toNat
  worked : ∀ a whole z : UInt64, a ≤ whole → op whole = .ok z → ∃ x, op a = .ok x

/-- No split of an amount draws more out of the operation. -/
abbrev NeverGains (op : UInt64 → Result UInt64) : Prop := UnderSplits (· ≤ ·) op

/-- No split of an amount lowers what the operation charges. -/
abbrev NeverSaves (op : UInt64 → Result UInt64) : Prop := UnderSplits (· ≥ ·) op

/-- The operation works out `f`. -/
def Computes (op : UInt64 → Result UInt64) (f : ℕ → ℕ) : Prop :=
  ∀ {a x}, op a = .ok x → x.toNat = f a.toNat

section Splits

variable {op : UInt64 → Result UInt64} {f : ℕ → ℕ}

theorem Computes.map (h : Computes op f) {parts outs : List UInt64}
    (hf : List.Forall₂ (fun a x => op a = .ok x) parts outs) :
    outs.map UInt64.toNat = (parts.map UInt64.toNat).map f := by
  induction hf with
  | nil => rfl
  | cons hax _ ih => rw [List.map_cons, List.map_cons, List.map_cons, ih, h hax]

theorem Computes.underSplits {worse : ℕ → ℕ → Prop} (h : Computes op f)
    (hpair : ∀ a b : ℕ, worse (f a + f b) (f (a + b)))
    (hsum : ∀ l : List ℕ, worse (l.map f).sum (f l.sum))
    (hok : ∀ a whole z : UInt64, a ≤ whole → op whole = .ok z → ∃ x, op a = .ok x) :
    UnderSplits worse op := by
  refine ⟨?_, ?_, hok⟩
  · intro a b whole x y z hw ha hb hz
    rw [h ha, h hb, h hz, hw]
    exact hpair _ _
  · intro parts outs whole z hw hparts hz
    rw [h.map hparts, h hz, hw]
    exact hsum _

theorem Computes.neverGains (h : Computes op f) (hf : Superadd f)
    (hok : ∀ a whole z : UInt64, a ≤ whole → op whole = .ok z → ∃ x, op a = .ok x) :
    NeverGains op :=
  h.underSplits hf (hf.sum_le (Nat.zero_le _)) hok

theorem Computes.neverSaves (h : Computes op f) (hf : Subadd f) (h0 : f 0 ≤ 0)
    (hok : ∀ a whole z : UInt64, a ≤ whole → op whole = .ok z → ∃ x, op a = .ok x) :
    NeverSaves op :=
  h.underSplits hf (hf.sum_le h0) hok

end Splits

section Premium

variable {bps : UInt16} {price : ℕ}

theorem subadd_premium (bps : ℕ) : Subadd fun amount => premium amount bps :=
  @subadd_ceil bps 10000 (by norm_num)

theorem superadd_net (h : bps ≤ 10000) :
    Superadd fun amount => amount - premium amount bps.toNat :=
  (subadd_premium _).superadd_sub fun _ => premium_le (UInt16.le_iff_toNat_le.1 h)

theorem mintSilvOut_of_le {a b out : UInt64} (h : mintSilvOut b price = .ok out) (hab : a ≤ b) :
    ∃ out', mintSilvOut a price = .ok out' := by
  have hmul := Nat.mul_le_mul_right PRICE_SCALE_FACTOR (UInt64.le_iff_toNat_le.1 hab)
  have hdiv := @Nat.div_le_div_right _ _ price hmul
  simp only [mintSilvOut, bind_ok, require_ok, orOverflow_ok, checkedU128_eq_some,
    tryFrom_eq_some, word_uint64, exists_unit] at h ⊢
  obtain ⟨hp, num, ⟨hnum, rfl⟩, hout⟩ := h
  obtain ⟨out', hout'⟩ := exists_word (hdiv.trans hout.ge)
  exact ⟨out', hp, _, ⟨hmul.trans_lt hnum, rfl⟩, hout'⟩

theorem silvToUsdcAtOracle_of_le {a b out : UInt64} (h : silvToUsdcAtOracle b price = .ok out)
    (hab : a ≤ b) : ∃ out', silvToUsdcAtOracle a price = .ok out' := by
  have hmul := Nat.mul_le_mul_right price (UInt64.le_iff_toNat_le.1 hab)
  have hdiv := @Nat.div_le_div_right _ _ PRICE_SCALE_FACTOR hmul
  simp only [silvToUsdcAtOracle, bind_ok, orOverflow_ok, checkedU128_eq_some, tryFrom_eq_some,
    word_uint64] at h ⊢
  obtain ⟨num, ⟨hnum, rfl⟩, hout⟩ := h
  obtain ⟨out', hout'⟩ := exists_word (hdiv.trans hout.ge)
  exact ⟨out', _, ⟨hmul.trans_lt hnum, rfl⟩, hout'⟩

theorem neverGains_issuedFor (h : bps ≤ 10000) : NeverGains (issuedFor bps price) := by
  have hcomputes : Computes (issuedFor bps price)
      ((fun n => n * 1000000000 / price) ∘ fun n => n - premium n bps.toNat) := by
    intro a x hx
    simp only [issuedFor, bind_ok, orOverflow_ok] at hx
    obtain ⟨fee, hfee, net, hnet, hout⟩ := hx
    rw [(mintSilvOut_ok hout).2, net_eq hfee hnet]
    rfl
  refine hcomputes.neverGains ((superadd_floor _ _).comp (superadd_net h)) ?_
  intro a whole z hle hz
  simp only [issuedFor, bind_ok, orOverflow_ok] at hz ⊢
  obtain ⟨fee, hfee, net, hnet, hout⟩ := hz
  obtain ⟨feeₐ, netₐ, hfeeₐ, hnetₐ⟩ := exists_net h a
  have hnet_le : netₐ ≤ net := by
    rw [UInt64.le_iff_toNat_le, net_eq hfeeₐ hnetₐ, net_eq hfee hnet]
    exact (superadd_net h).monotone (UInt64.le_iff_toNat_le.1 hle)
  obtain ⟨x, hx⟩ := mintSilvOut_of_le hout hnet_le
  exact ⟨x, feeₐ, hfeeₐ, netₐ, hnetₐ, hx⟩

theorem neverGains_paidFor (h : bps ≤ 10000) : NeverGains (paidFor bps price) := by
  have hcomputes : Computes (paidFor bps price)
      ((fun n => n - premium n bps.toNat) ∘ fun n => n * price / 1000000000) := by
    intro a x hx
    simp only [paidFor, bind_ok, orOverflow_ok] at hx
    obtain ⟨gross, hgross, fee, hfee, hnet⟩ := hx
    rw [net_eq hfee hnet, silvToUsdcAtOracle_ok hgross]
    rfl
  refine hcomputes.neverGains ((superadd_net h).comp (superadd_floor _ _)) ?_
  intro a whole z hle hz
  simp only [paidFor, bind_ok, orOverflow_ok] at hz ⊢
  obtain ⟨gross, hgross, -⟩ := hz
  obtain ⟨grossₐ, hgrossₐ⟩ := silvToUsdcAtOracle_of_le hgross hle
  obtain ⟨fee, net, hfee, hnet⟩ := exists_net h grossₐ
  exact ⟨net, grossₐ, hgrossₐ, fee, hfee, hnet⟩

theorem neverSaves_feeFromAmount (h : bps ≤ 10000) : NeverSaves (feeFromAmount · bps) := by
  have hcomputes : Computes (feeFromAmount · bps) fun n => premium n bps.toNat :=
    feeFromAmount_ok
  refine hcomputes.neverSaves (subadd_premium _) (by simp [premium]) ?_
  intro a _ _ _ _
  obtain ⟨fee, hfee, -⟩ := @exists_feeFromAmount a bps h
  exact ⟨fee, hfee⟩

/-- However many mints an amount is split over, and whatever state each meets, at one price and
premium they issue at most what one mint of the amount issues. -/
theorem mints_never_gain (h : bps ≤ 10000) {parts : List UInt64} {qs : List MintQuote}
    {whole : UInt64} {q : MintQuote} (hw : whole.toNat = (parts.map UInt64.toNat).sum)
    (hparts : List.Forall₂ (MintsFor bps price) parts qs) (hq : MintsFor bps price whole q) :
    (qs.map (·.silvOut.toNat)).sum ≤ q.silvOut.toNat := by
  obtain ⟨c, supply, least, hq⟩ := hq
  have hsplit := (neverGains_issuedFor h).split parts (qs.map (·.silvOut)) whole q.silvOut hw ?_
    (issuedFor_of_quoteMint hq)
  · rwa [List.map_map] at hsplit
  · rw [List.forall₂_map_right_iff]
    apply hparts.imp
    rintro a r ⟨c', supply', least', hr⟩
    exact issuedFor_of_quoteMint hr

/-- However many redemptions an amount is split over, at one price and premium they pay at most
what one redemption of the amount pays. -/
theorem redemptions_never_gain (h : bps ≤ 10000) {parts : List UInt64} {qs : List RedeemQuote}
    {whole : UInt64} {q : RedeemQuote} (hw : whole.toNat = (parts.map UInt64.toNat).sum)
    (hparts : List.Forall₂ (RedeemsFor bps price) parts qs) (hq : RedeemsFor bps price whole q) :
    (qs.map (·.toUserUsdc.toNat)).sum ≤ q.toUserUsdc.toNat := by
  obtain ⟨c, balance, now, least, hq⟩ := hq
  have hsplit := (neverGains_paidFor h).split parts (qs.map (·.toUserUsdc)) whole q.toUserUsdc hw ?_
    (paidFor_of_quoteRedeem hq)
  · rwa [List.map_map] at hsplit
  · rw [List.forall₂_map_right_iff]
    apply hparts.imp
    rintro a r ⟨c', balance', now', least', hr⟩
    exact paidFor_of_quoteRedeem hr

/-- Splitting an operation never helps the user. -/
theorem splitting_never_helps (h : bps ≤ 10000) (price : ℕ) :
    NeverGains (issuedFor bps price) ∧ NeverGains (paidFor bps price) ∧
      NeverSaves (feeFromAmount · bps) :=
  ⟨neverGains_issuedFor h, neverGains_paidFor h, neverSaves_feeFromAmount h⟩

/-- At the launch premium and 58.34 USDC an ounce, 58 and 59 units apart issue nothing. -/
theorem splitting_never_helps_launch :
    issuedFor 100 58340000000 58 = .ok 0 ∧ issuedFor 100 58340000000 59 = .ok 0 ∧
      issuedFor 100 58340000000 117 = .ok 1 ∧
      UInt64.toNat 0 + UInt64.toNat 0 ≤ UInt64.toNat 1 := by
  have hleft : issuedFor 100 58340000000 58 = .ok 0 := by decide +kernel
  have hright : issuedFor 100 58340000000 59 = .ok 0 := by decide +kernel
  have hwhole : issuedFor 100 58340000000 117 = .ok 1 := by decide +kernel
  exact ⟨hleft, hright, hwhole,
    (splitting_never_helps (by decide) _).1.pair 58 59 117 0 0 1 (by decide) hleft hright hwhole⟩

end Premium

end DominionSilver
