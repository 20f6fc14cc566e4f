import DominionSilver.Sanity.Reference

/-! One signed print prices one operation. Both priced instructions store the
timestamp of the payload they accept and accept only a later one, so over a run
the timestamps increase, whatever happens in between. -/

namespace DominionSilver

open Checked Bytes Tokens

section Payload

theorem reader_bind_ok {α β : Type} {x : Reader α} {f : α → Reader β} {data rest : List UInt8}
    {b : β} :
    (x >>= f) data = .ok (b, rest) ↔ ∃ a mid, x data = .ok (a, mid) ∧ f a mid = .ok (b, rest) := by
  change (x data >>= fun p => f p.1 p.2) = _ ↔ _
  rw [bind_ok, Prod.exists]

theorem take_ok {n : ℕ} {data bs rest : List UInt8} (h : Reader.take n data = .ok (bs, rest)) :
    bs = data.take n ∧ rest = data.drop n := by
  unfold Reader.take at h
  split_ifs at h
  obtain ⟨rfl, rfl⟩ := Prod.mk.inj (Except.ok.inj h)
  exact ⟨rfl, rfl⟩

theorem u32_ok {data rest : List UInt8} {v : UInt32} (h : Reader.u32 data = .ok (v, rest)) :
    rest = data.drop 4 := by
  obtain ⟨bs, mid, ht, hr⟩ := reader_bind_ok.1 h
  rw [← (Prod.mk.inj (Except.ok.inj hr)).2]
  exact (take_ok ht).2

theorem u64_ok {data rest : List UInt8} {v : UInt64} (h : Reader.u64 data = .ok (v, rest)) :
    v = UInt64.ofNat (ofLE (data.take 8)) := by
  obtain ⟨bs, mid, ht, hr⟩ := reader_bind_ok.1 h
  rw [← (Prod.mk.inj (Except.ok.inj hr)).1, (take_ok ht).1]

/-- The timestamp in a payload's header, after the format magic. -/
def payloadTimestamp (payload : List UInt8) : UInt64 :=
  UInt64.ofNat (ofLE ((payload.drop 4).take 8))

theorem readPayload_ok {feed : UInt32} {channel : UInt8} {payload rest : List UInt8}
    {header : UInt64 × UInt8 × Option Target}
    (h : readPayload feed channel payload = .ok (header, rest)) :
    header.1 = payloadTimestamp payload := by
  obtain ⟨magic, rest₁, hmagic, h⟩ := reader_bind_ok.1 h
  obtain rfl := u32_ok hmagic
  split_ifs at h
  · cases h
  · obtain ⟨timestamp, rest₂, htime, h⟩ := reader_bind_ok.1 h
    obtain rfl := u64_ok htime
    obtain ⟨id, rest₃, -, h⟩ := reader_bind_ok.1 h
    split_ifs at h
    · cases h
    · obtain ⟨feeds, rest₄, -, h⟩ := reader_bind_ok.1 h
      obtain ⟨found, rest₅, -, h⟩ := reader_bind_ok.1 h
      obtain ⟨left, rest₆, -, h⟩ := reader_bind_ok.1 h
      split_ifs at h
      · cases h
      · rw [← (Prod.mk.inj (Except.ok.inj h)).1]
        rfl

theorem extractFeedPrice_ok {payload : List UInt8} {feed : UInt32} {channel : UInt8}
    {p : LazerPrice} (h : extractFeedPrice payload feed channel = .ok p) :
    p.timestampUs = payloadTimestamp payload := by
  simp only [extractFeedPrice, bind_ok, guardOr_ok, okOr_ok, exists_unit, pure_ok] at h
  obtain ⟨-, ⟨header, rest⟩, hread, t, -, price, -, -, exponent, -, count, -, -, feedUs, -, rfl⟩ :=
    h
  exact readPayload_ok hread

theorem priceFromLazer_ok {p : LazerPrice} {params : LazerPolicyParams} {last : UInt64}
    {r : LazerPriceResult} (h : priceFromLazer p params last = .ok r) :
    r.feedUpdateTimestampUs = p.timestampUs ∧ last < r.feedUpdateTimestampUs := by
  simp only [priceFromLazer, bind_ok, guardOr_ok, okOr_ok, exists_unit] at h
  obtain ⟨-, conf, -, -, lhs, -, rhs, -, -, -, hcarried, -, -, hmono, -, h⟩ := h
  split_ifs at h <;>
  · simp only [bind_ok, guardOr_ok, okOr_ok, exists_unit, pure_ok] at h
    obtain ⟨_, -, -, rfl⟩ := h
    exact ⟨hcarried, hmono⟩

end Payload

section Runs

/-- The payload that the signature of a message covers, empty where the message has none. -/
def signedPayload (a : PricedAccounts) : List UInt8 :=
  match (unwrapSolanaPayload.run' a.lazer.request.messageData : Except LazerError (List UInt8)) with
  | .ok payload => payload
  | .error _ => []

/-- The accounts of a mint or a redeem. -/
def pricedAccounts (r : Entry) : Option PricedAccounts :=
  match r.event with
  | .call c => match c.ix with
    | .mintSilv _ _ accounts => some accounts
    | .redeemSilv _ _ accounts => some accounts
    | _ => none
  | .external => none

/-- The payloads of the mints and redeems of a run, both sides together, oldest first. -/
def prints (es : List Entry) : List (List UInt8) :=
  (es.filterMap pricedAccounts).map signedPayload

theorem parseVerifiedMessage_ok {signer payload out : List UInt8} (hs : signer.length = 32)
    (h : parseVerifiedMessage (signer ++ toLEBytes (UInt32.ofNat payload.length) ++ payload) =
      .ok out) : out = payload := by
  simp only [parseVerifiedMessage, bind_ok, require_ok, exists_unit, pure_ok] at h
  obtain ⟨-, -, -, rfl⟩ := h
  have hl : (signer ++ toLEBytes (UInt32.ofNat payload.length)).length = 36 := by
    rw [List.length_append, length_toLEBytes, hs]; rfl
  exact List.drop_left' hl

theorem verifyAndGetPayload_ok {rt : Runtime} {a : PricedAccounts} {payload : List UInt8}
    (h : verifyAndGetPayload rt a.lazer = .ok payload) : payload = signedPayload a := by
  simp only [verifyAndGetPayload, bind_ok, require_ok, guardOr_ok, okOr_ok, cpi_ok,
    exists_unit] at h
  obtain ⟨-, -, -, -, -, -, -, treasury, -, -, fee, -, -, _, hv, ⟨prog, ret⟩, rfl, rfl, hret⟩ := h
  obtain ⟨signer, p, hs, hp, rfl⟩ := rt.verifyMessage_payload hv
  rw [parseVerifiedMessage_ok hs hret, signedPayload, hp]

/-- An accepted price is later than the mark, and its time is that of the signed payload. -/
theorem readSilverPriceLazer_ok {rt : Runtime} {a : PricedAccounts} {c : ConfigAccount} {now : ℤ}
    {price : LazerPriceResult} (h : readSilverPriceLazer rt a.lazer c now = .ok price) :
    verifyAndGetPayload rt a.lazer = .ok (signedPayload a) ∧
      price.feedUpdateTimestampUs = payloadTimestamp (signedPayload a) ∧
      c.lastUsedFeedUpdateTimestampUs < price.feedUpdateTimestampUs := by
  simp only [readSilverPriceLazer, bind_ok, mapErr_ok] at h
  obtain ⟨payload, hp, lp, hlp, hprice⟩ := h
  obtain ⟨ht, hmono⟩ := priceFromLazer_ok hprice
  rw [ht, extractFeedPrice_ok hlp, verifyAndGetPayload_ok hp] at *
  exact ⟨hp, rfl, hmono⟩

/-- A step that prices nothing keeps the mark; one that does moves it on to its own print. -/
theorem mark_step {rt : Runtime} {w w' : World} {e : Event} (h : Step rt w e w') :
    match pricedAccounts ⟨w, e, w'⟩ with
    | none => w'.config.lastUsedFeedUpdateTimestampUs = w.config.lastUsedFeedUpdateTimestampUs
    | some a => verifyAndGetPayload rt a.lazer = .ok (signedPayload a) ∧
        w'.config.lastUsedFeedUpdateTimestampUs = payloadTimestamp (signedPayload a) ∧
        w.config.lastUsedFeedUpdateTimestampUs < payloadTimestamp (signedPayload a) := by
  rcases step_cases h with ⟨⟨now, hnow, signer, ix⟩, rfl, -, he⟩ | ⟨rfl, he⟩
  · cases he with
    | mintSilv minted =>
      obtain ⟨hv, ht, hlt⟩ := readSilverPriceLazer_ok minted.read
      exact ⟨hv, ht, ht ▸ hlt⟩
    | redeemSilv redeemed =>
      obtain ⟨hv, ht, hlt⟩ := readSilverPriceLazer_ok redeemed.read
      exact ⟨hv, ht, ht ▸ hlt⟩
    | execute _ _ _ applied => cases applied <;> rfl
    | emergencyTightenRedeemLimits => rfl
    | _ => rfl
  · exact congrArg _ he.config

/-- The prints of a run lie before its mark, which is the last of them. -/
structure Marked (ps : List (List UInt8)) (mark : UInt64) : Prop where
  increasing : ps.Pairwise fun p q => payloadTimestamp p < payloadTimestamp q
  before : ∀ p ∈ ps, payloadTimestamp p ≤ mark
  last : mark = (ps.getLast?.map payloadTimestamp).getD 0

theorem Marked.snoc {ps : List (List UInt8)} {mark : UInt64} {p : List UInt8} (h : Marked ps mark)
    (hlt : mark < payloadTimestamp p) : Marked (ps ++ [p]) (payloadTimestamp p) := by
  refine ⟨?_, ?_, by simp⟩
  · refine List.pairwise_append.2 ⟨h.increasing, List.pairwise_singleton _ _, ?_⟩
    intro q hq r hr
    rw [List.mem_singleton.1 hr]
    exact UInt64.lt_of_le_of_lt (h.before q hq) hlt
  · intro q hq
    rcases List.mem_append.1 hq with hq | hq
    · exact UInt64.le_of_lt (UInt64.lt_of_le_of_lt (h.before q hq) hlt)
    · rw [List.mem_singleton.1 hq]; exact UInt64.le_refl _

theorem marked_of_run {rt : Runtime} {now₀ : ℤ} {w₀ w : World} {es : List Entry}
    (h₀ : Initialized rt now₀ w₀) (run : Run rt w₀ es w) :
    Marked (prints es) w.config.lastUsedFeedUpdateTimestampUs := by
  refine run.history (I := fun es w => Marked (prints es) w.config.lastUsedFeedUpdateTimestampUs)
    ?_ fun {rs s e s'} hm hs => ?_
  · obtain ⟨args, g, t, m, d⟩ := deployed_of_initialized h₀
    obtain ⟨usdc, -, rfl⟩ := d.state
    exact ⟨List.Pairwise.nil, nofun, rfl⟩
  · have hstep := mark_step hs
    unfold prints at hm ⊢
    rw [List.filterMap_append, List.map_append, List.filterMap_cons, List.filterMap_nil]
    cases hp : pricedAccounts ⟨s, e, s'⟩ with
    | none =>
      rw [hp] at hstep
      simp only [List.map_nil, List.append_nil, hstep]
      exact hm
    | some a =>
      rw [hp] at hstep
      obtain ⟨-, hmark, hlt⟩ := hstep
      simp only [List.map_cons, List.map_nil, hmark]
      exact hm.snoc hlt

/-- Over a run the payloads that price operations, on both sides together, have increasing
timestamps and never repeat, and the mark is that of the last one. Each is the payload that the
operation's message signs. -/
theorem one_print_prices_one_operation {rt : Runtime} {now₀ : ℤ} {w₀ w : World} {es : List Entry}
    (h₀ : Initialized rt now₀ w₀) (run : Run rt w₀ es w) :
    ((prints es).Pairwise fun p q => payloadTimestamp p < payloadTimestamp q) ∧
      (prints es).Nodup ∧
      w.config.lastUsedFeedUpdateTimestampUs =
        ((prints es).getLast?.map payloadTimestamp).getD 0 ∧
      ∀ r ∈ es, ∀ a, pricedAccounts r = some a →
        verifyAndGetPayload rt a.lazer = .ok (signedPayload a) := by
  have hm := marked_of_run h₀ run
  refine ⟨hm.increasing, hm.increasing.imp ?_, hm.last, ?_⟩
  · intro p q hlt he
    exact UInt64.lt_irrefl _ (he ▸ hlt)
  · intro r hr a ha
    obtain ⟨_, _, hs⟩ := run.step_of_mem hr
    have hstep := mark_step hs
    rw [ha] at hstep
    exact hstep.1

theorem one_print_tradeCalls :
    prints (Reference.entries Reference.runtime Reference.start Reference.tradeCalls) =
        [Reference.printAt 2999000000, Reference.printAt 3000000000] ∧
      (prints (Reference.entries Reference.runtime Reference.start Reference.tradeCalls)).Nodup :=
  ⟨by decide +kernel, (one_print_prices_one_operation Reference.initialized_start
    (Reference.run_of_succeeds (by decide +kernel))).2.1⟩

end Runs

end DominionSilver
