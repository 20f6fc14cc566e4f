import DominionSilver.Proofs.Prints
import DominionSilver.Sanity.Quotes

/-! The price breaker. The config remembers one price and its time, that of the last operation worth
recording, and no later price within the decay is far from it. A recorded price of zero stands for
none, and no operation is accepted at a price of zero. -/

namespace DominionSilver

open Checked Bytes Tokens

/-- An accepted mint or redeem. `size` is what it is worth in USDC, `threshold` the size from which
on prices were recorded when it ran. -/
structure Operation where
  price : ℕ
  time : ℤ
  size : UInt64
  threshold : UInt64
deriving DecidableEq

section Operations

variable (rt : Runtime)

/-- The operation at the price that the oracle read finds, of the size that the price makes it. -/
def pricedOperation (accounts : PricedAccounts) (c : ConfigAccount) (now : ℤ)
    (size : ℕ → Result UInt64) : Option Operation := do
  let price ← (readSilverPriceLazer rt accounts.lazer c now).toOption
  let size ← (size price.normalizedPriceScaled).toOption
  return ⟨price.normalizedPriceScaled, now, size, c.priceUpdateMinAmountUsdc⟩

def operation (r : Entry) : Option Operation :=
  match r.event with
  | .call c => match c.ix with
    | .mintSilv amountUsdc _ accounts =>
      pricedOperation rt accounts r.pre.config c.now fun _ => .ok amountUsdc
    | .redeemSilv amountSilv _ accounts =>
      pricedOperation rt accounts r.pre.config c.now (silvToUsdcAtOracle amountSilv)
    | _ => none
  | .external => none

/-- The mints and redeems of a run, oldest first. -/
def operations (es : List Entry) : List Operation := es.filterMap (operation rt)

end Operations

/-- The operations that set the reference price: the first, and those that are large enough. -/
def references : List Operation → List Operation
  | [] => []
  | o :: os => o :: os.filter fun p => p.threshold ≤ p.size

/-- The price and the time of the last operation that set them. -/
def latestReference (os : List Operation) : Option (ℕ × ℤ) :=
  (references os).getLast?.map fun o => (o.price, o.time)

/-- The price and the time that the config remembers. -/
def ConfigAccount.reference (c : ConfigAccount) : Option (ℕ × ℤ) :=
  if c.lastRecordedPriceScaled = 0 then none
  else some (c.lastRecordedPriceScaled, c.lastPriceUpdateAt)

section References

variable {os : List Operation} {o : Operation}

theorem latestReference_eq_none : latestReference os = none ↔ os = [] := by
  cases os <;> simp [latestReference, references]

theorem references_snoc (h : os ≠ []) :
    references (os ++ [o]) = references os ++ [o].filter fun p => p.threshold ≤ p.size := by
  cases os with
  | nil => exact absurd rfl h
  | cons p ps => simp only [references, List.cons_append, List.filter_append]

theorem latestReference_large (h : os ≠ []) (ho : o.threshold ≤ o.size) :
    latestReference (os ++ [o]) = some (o.price, o.time) := by
  rw [latestReference, references_snoc h, List.filter_cons_of_pos (by simpa using ho),
    List.filter_nil, List.getLast?_append, List.getLast?_singleton]
  rfl

theorem latestReference_small (h : os ≠ []) (ho : ¬ o.threshold ≤ o.size) :
    latestReference (os ++ [o]) = latestReference os := by
  rw [latestReference, references_snoc h, List.filter_cons_of_neg (by simpa using ho),
    List.filter_nil, List.append_nil, latestReference]

end References

section Steps

variable {rt : Runtime} {w w' : World} {e : Event} {o : Operation}

/-- What an accepted operation finds and records. -/
structure Recorded (w w' : World) (o : Operation) : Prop where
  positive : 0 < o.price
  threshold : o.threshold = w.config.priceUpdateMinAmountUsdc
  near : checkPriceDelta w.config o.price o.time = .ok ()
  recorded : recordedPrice w.config o.price o.size o.time =
    (w'.config.lastRecordedPriceScaled, w'.config.lastPriceUpdateAt)

theorem unrecorded_of_applied {ata : Pubkey} {w₁ : World} {change : Change}
    (h : Applied rt ata w change w₁) : w₁.config.reference = w.config.reference := by
  cases h <;> rfl

theorem pricedOperation_of_read {accounts : PricedAccounts} {c : ConfigAccount} {now : ℤ}
    {size : ℕ → Result UInt64} {price : LazerPriceResult} {amount : UInt64}
    (hread : readSilverPriceLazer rt accounts.lazer c now = .ok price)
    (hsize : size price.normalizedPriceScaled = .ok amount) :
    pricedOperation rt accounts c now size =
      some ⟨price.normalizedPriceScaled, now, amount, c.priceUpdateMinAmountUsdc⟩ := by
  simp only [pricedOperation, hread, hsize, Except.toOption, Option.bind_eq_bind,
    Option.bind_some, pure]

theorem recorded_of_step (h : Step rt w e w') :
    (∃ o, operation rt ⟨w, e, w'⟩ = some o ∧ Recorded w w' o) ∨
      operation rt ⟨w, e, w'⟩ = none ∧ pricedAccounts ⟨w, e, w'⟩ = none ∧
        w'.config.reference = w.config.reference := by
  rcases step_cases h with ⟨⟨now, hnow, signer, ix⟩, rfl, -, he⟩ | ⟨rfl, he⟩
  · cases he with
    | @mintSilv amountUsdc _ _ _ _ _ _ _ _ _ minted =>
      obtain ⟨exempt, -, hq⟩ := minted.quote
      have hop := @pricedOperation_of_read rt _ _ _ (fun _ => .ok amountUsdc) _ _ minted.read rfl
      exact .inl ⟨_, hop, (quoteMint_ok hq).price_pos, rfl, minted.delta, minted.recorded⟩
    | @redeemSilv amountSilv _ _ price _ _ _ _ _ _ redeemed =>
      obtain ⟨exempt, treasury, -, -, hq⟩ := redeemed.quote
      have hop := pricedOperation_of_read redeemed.read (quoteRedeem_steps hq).1
      have hquoted := quoteRedeem_ok hq
      have hpos : 0 < price.normalizedPriceScaled := by
        -- at a price of zero everything is worth zero
        by_contra h0
        have hgross := hquoted.gross
        rw [Nat.eq_zero_of_not_pos h0] at hgross
        have := hquoted.gross_pos
        omega
      exact .inl ⟨_, hop, hpos, rfl, redeemed.delta, redeemed.recorded⟩
    | execute _ _ _ applied =>
      have hsame := unrecorded_of_applied applied
      exact .inr ⟨rfl, rfl, hsame⟩
    | _ => exact .inr ⟨rfl, rfl, rfl⟩
  · exact .inr ⟨rfl, rfl, congrArg ConfigAccount.reference he.config⟩

theorem Recorded.latest {os : List Operation} (h : Recorded w w' o)
    (hos : w.config.reference = latestReference os) :
    w'.config.reference = latestReference (os ++ [o]) := by
  have hrec := h.recorded
  have hsome : ∀ {p t}, 0 < p → (p, t) = (w'.config.lastRecordedPriceScaled,
      w'.config.lastPriceUpdateAt) → w'.config.reference = some (p, t) := by
    intro p t hp hpt
    obtain ⟨rfl, rfl⟩ := Prod.mk.inj hpt
    exact if_neg hp.ne'
  unfold recordedPrice at hrec
  rcases List.eq_nil_or_concat os with rfl | ⟨ps, p, rfl⟩
  · have h0 : w.config.lastRecordedPriceScaled = 0 := by
      by_contra h0
      rw [ConfigAccount.reference, if_neg h0] at hos
      cases hos
    rw [if_pos (.inl h0)] at hrec
    exact hsome h.positive hrec
  · have hne : ps.concat p ≠ [] := by simp
    have h0 : w.config.lastRecordedPriceScaled ≠ 0 := by
      intro h0
      rw [ConfigAccount.reference, if_pos h0] at hos
      exact hne (latestReference_eq_none.1 hos.symm)
    by_cases hlarge : o.threshold ≤ o.size
    · rw [if_pos (.inr (h.threshold ▸ hlarge))] at hrec
      rw [latestReference_large hne hlarge]
      exact hsome h.positive hrec
    · rw [if_neg (not_or.2 ⟨h0, h.threshold ▸ hlarge⟩)] at hrec
      rw [latestReference_small hne hlarge, ← hos, hsome (Nat.pos_of_ne_zero h0) hrec]
      exact (if_neg h0).symm

theorem abs_sub_eq_dist (a b : ℕ) :
    |(a : ℤ) - b| = ((if b ≤ a then a - b else b - a : ℕ) : ℤ) := by
  by_cases h : b ≤ a
  · rw [if_pos h, abs_of_nonneg (by omega), Nat.cast_sub h]
  · rw [if_neg h, abs_of_neg (by omega), Nat.cast_sub (by omega), neg_sub]

theorem near_of_delta {c : ConfigAccount} {price : ℕ} {now : ℤ}
    (h : checkPriceDelta c price now = .ok ()) (h0 : c.lastRecordedPriceScaled ≠ 0)
    (hdecay : now - c.lastPriceUpdateAt ≤ c.priceDeltaDecaySeconds.toNat) :
    |(price : ℤ) - c.lastRecordedPriceScaled| * 10000 ≤
      c.lastRecordedPriceScaled * c.maxPriceDeltaBps.toNat := by
  have hlt := c.priceDeltaDecaySeconds.toNat_lt
  have hfresh : ¬ (c.priceDeltaDecaySeconds.toNat : ℤ) <
      saturatingI64 (now - c.lastPriceUpdateAt) := by
    unfold saturatingI64
    omega
  rw [checkPriceDelta, if_neg h0, if_neg hfresh] at h
  simp only [bind_ok, orOverflow_ok, checkedU128_eq_some, require_ok] at h
  obtain ⟨_, ⟨-, rfl⟩, _, ⟨-, rfl⟩, hle⟩ := h
  rw [abs_sub_eq_dist]
  exact_mod_cast hle

end Steps

section Runs

variable {rt : Runtime} {now₀ : ℤ} {w₀ w : World} {es : List Entry}

theorem reference_initial (h₀ : Initialized rt now₀ w₀) : w₀.config.reference = none := by
  obtain ⟨args, g, t, m, d⟩ := deployed_of_initialized h₀
  obtain ⟨usdc, -, rfl⟩ := d.state
  rfl

theorem reference_of_run (h₀ : Initialized rt now₀ w₀) (run : Run rt w₀ es w) :
    w.config.reference = latestReference (operations rt es) := by
  refine run.history (I := fun es w => w.config.reference = latestReference (operations rt es))
    (reference_initial h₀) ?_
  intro es w e w' ih hstep
  unfold operations at ih ⊢
  rw [List.filterMap_append]
  rcases recorded_of_step hstep with ⟨o, ho, hrec⟩ | ⟨ho, -, hsame⟩
  · rw [List.filterMap_cons_some ho, List.filterMap_nil]
    exact hrec.latest ih
  · rw [List.filterMap_cons_none ho, List.filterMap_nil, List.append_nil]
    exact hsame.trans ih

/-- Over every run the config remembers the price and the time of the last mint or redeem that was
the first or large enough, and none only before the first. None within the decay strays from what is
remembered by more than the breaker allows. -/
theorem breaker_stays_armed (h₀ : Initialized rt now₀ w₀) (run : Run rt w₀ es w) :
    (∀ r ∈ es, (pricedAccounts r).isSome → (operation rt r).isSome) ∧
    w.config.reference = latestReference (operations rt es) ∧
    (operations rt es ≠ [] → w.config.lastRecordedPriceScaled ≠ 0) ∧
    ∀ before r after, es = before ++ r :: after → ∀ o, operation rt r = some o →
      operations rt before ≠ [] →
      o.time - r.pre.config.lastPriceUpdateAt ≤ r.pre.config.priceDeltaDecaySeconds.toNat →
      |(o.price : ℤ) - r.pre.config.lastRecordedPriceScaled| * 10000 ≤
        r.pre.config.lastRecordedPriceScaled * r.pre.config.maxPriceDeltaBps.toNat := by
  have harmed : ∀ {es w}, Run rt w₀ es w → operations rt es ≠ [] →
      w.config.lastRecordedPriceScaled ≠ 0 := by
    intro es w run hne h0
    have href := reference_of_run h₀ run
    rw [ConfigAccount.reference, if_pos h0] at href
    exact hne (latestReference_eq_none.1 href.symm)
  refine ⟨?_, reference_of_run h₀ run, harmed run, ?_⟩
  · intro r hr hpriced
    obtain ⟨as, -, hstep⟩ := run.step_of_mem hr
    rcases recorded_of_step hstep with ⟨o, ho, -⟩ | ⟨-, hnone, -⟩
    · exact Option.isSome_of_eq_some ho
    · exact absurd hpriced (hnone ▸ Bool.false_ne_true)
  · rintro before ⟨pre, event, post⟩ after rfl o ho hne hdecay
    obtain ⟨hbefore, hstep, -⟩ := run.split
    rcases recorded_of_step hstep with ⟨o', ho', hrec⟩ | ⟨hnone, -, -⟩
    · obtain rfl := Option.some.inj (ho.symm.trans ho')
      exact near_of_delta hrec.near (harmed hbefore hne) hdecay
    · cases ho.symm.trans hnone

theorem breaker_stays_armed_tradeCalls :
    (Reference.final Reference.runtime Reference.start Reference.tradeCalls).config.reference =
      latestReference (operations Reference.runtime
        (Reference.entries Reference.runtime Reference.start Reference.tradeCalls)) :=
  (breaker_stays_armed Reference.initialized_start
    (Reference.run_of_succeeds (by decide +kernel))).2.1

end Runs

end DominionSilver
