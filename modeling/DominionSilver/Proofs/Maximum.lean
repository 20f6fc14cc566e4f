import DominionSilver.Library.Shares
import DominionSilver.Proofs.Clients

/-! The maximum that the app advertises for a redemption. What the program bounds is the outflow, so
the maximum is the outflow that fits, less the premium where this leaves the treasury too. A user
gets a share of the gross amount, and the share decides the rounding: no amount that fits pays more,
the amount found by rounding up pays exactly the maximum, and the amount that the app finds by
rounding down still fits. -/

namespace DominionSilver

open Checked Doubles Shares

/-- A redemption of `gross` at a premium passes the program's budget check and its treasury check,
and pays the user `toUser`. -/
def Serves (c : ConfigAccount) (premiumBps : UInt16) (treasury : UInt64) (now : ℤ)
    (gross toUser : UInt64) : Prop :=
  ∃ fee totalOut newUsed, feeFromAmount gross premiumBps = .ok fee ∧
    checkedSub gross fee = some toUser ∧ checkedAdd toUser (feeRouted c fee) = some totalOut ∧
    checkedAdd (rollWindow now c.instantWindowStart c.instantRedeemWindowSeconds c.instantUsedUsdc
      c.instantUsedPrevUsdc).effectiveUsed totalOut = some newUsed ∧
    newUsed ≤ c.instantRedeemBudgetUsdc ∧ totalOut ≤ treasury

/-- The part of a gross amount that its premium leaves. -/
abbrev netOf (bps : UInt16) (gross : ℕ) : ℕ := share (10000 - bps.toNat) 10000 gross

/-- What a gross amount takes out of the treasury. -/
def outflowOf (c : ConfigAccount) (bps : UInt16) (gross : ℕ) : ℕ :=
  if c.feeRoutingDisabled then netOf bps gross else gross

/-- The most that may leave the treasury now. -/
def room (c : ConfigAccount) (treasury : UInt64) (now : ℤ) : ℕ :=
  min (c.instantRedeemBudgetUsdc.toNat - c.counter.used c.window now) treasury.toNat

/-- The most a user can receive now. -/
def mostOf (c : ConfigAccount) (bps : UInt16) (treasury : UInt64) (now : ℤ) : ℕ :=
  if c.feeRoutingDisabled then room c treasury now else netOf bps (room c treasury now)

section Rounding

variable {c : ConfigAccount} {bps : UInt16} {treasury : UInt64} {now : ℤ}

theorem netOf_le_mostOf {gross : ℕ} (h : outflowOf c bps gross ≤ room c treasury now) :
    netOf bps gross ≤ mostOf c bps treasury now := by
  unfold outflowOf at h
  unfold mostOf
  split_ifs at h ⊢
  · exact h
  · exact share_mono _ _ h

theorem outflowOf_whole_le (h : bps < 10000) :
    outflowOf c bps (whole (10000 - bps.toNat) 10000 (mostOf c bps treasury now)) ≤
      room c treasury now := by
  have hk : 0 < 10000 - bps.toNat := Nat.sub_pos_of_lt (UInt16.lt_iff_toNat_lt.1 h)
  unfold outflowOf mostOf
  split_ifs
  · exact share_whole_le (by norm_num) _
  · exact whole_share_le hk _

/-- An amount that fits and whose share is the maximum. Only where the premium stays does the amount
exceed what may leave the treasury. -/
theorem exists_paying_mostOf (h : bps < 10000)
    (hfit : c.feeRoutingDisabled = true →
      mostOf c bps treasury now * 10000 ≤ (2 ^ 64 - 1) * (10000 - bps.toNat)) :
    ∃ gross : UInt64, outflowOf c bps gross.toNat ≤ room c treasury now ∧
      netOf bps gross.toNat = mostOf c bps treasury now := by
  have hk : 0 < 10000 - bps.toNat := Nat.sub_pos_of_lt (UInt16.lt_iff_toNat_lt.1 h)
  unfold outflowOf mostOf at *
  split_ifs at hfit ⊢ with hoff
  · have hword : wholeUp (10000 - bps.toNat) 10000 (room c treasury now) < 2 ^ 64 :=
      Nat.lt_of_le_sub_one (by norm_num) ((wholeUp_le_iff hk).2 (hfit hoff))
    refine ⟨UInt64.ofNat (wholeUp (10000 - bps.toNat) 10000 (room c treasury now)), ?_⟩
    rw [UInt64.toNat_ofNat_of_lt' hword, netOf, share_wholeUp hk (Nat.sub_le _ _)]
    exact ⟨le_rfl, rfl⟩
  · obtain ⟨gross, hgross⟩ := exists_word (min_le_right _ _ : room c treasury now ≤ _)
    exact ⟨gross, hgross.le, congrArg _ hgross⟩

end Rounding

section Chain

variable {c : ConfigAccount} {bps : UInt16} {treasury gross toUser : UInt64} {now : ℤ}

theorem net_share (h : bps ≤ 10000) (amount : ℕ) :
    amount - premium amount bps.toNat = netOf bps amount := by
  have hle : bps.toNat ≤ 10000 := UInt16.le_iff_toNat_le.1 h
  have hrest : 10000 - (10000 - bps.toNat) = bps.toNat := Nat.sub_sub_self hle
  rw [netOf, ← sub_ceil (by norm_num) (Nat.sub_le _ _), hrest]
  rfl

theorem totalOut_eq {fee totalOut : UInt64} (h : bps ≤ 10000)
    (hfee : feeFromAmount gross bps = .ok fee) (hnet : checkedSub gross fee = some toUser)
    (hout : checkedAdd toUser (feeRouted c fee) = some totalOut) :
    toUser.toNat = netOf bps gross.toNat ∧ totalOut.toNat = outflowOf c bps gross.toNat := by
  have huser := (net_eq hfee hnet).trans (net_share h _)
  have hsub := checkedSub_eq_some.1 hnet
  have hadd := checkedAdd_eq_some.1 hout
  simp only [word_uint64] at hsub hadd
  refine ⟨huser, ?_⟩
  rw [outflowOf, ← huser]
  unfold feeRouted at hadd
  split_ifs at hadd ⊢
  · rw [UInt64.toNat_zero] at hadd; omega
  · omega

theorem Serves.outflow_le (h : Serves c bps treasury now gross toUser)
    (hw : 0 < c.instantRedeemWindowSeconds.toNat) (hbps : bps ≤ 10000) :
    toUser.toNat = netOf bps gross.toNat ∧
      outflowOf c bps gross.toNat ≤ room c treasury now := by
  obtain ⟨fee, totalOut, newUsed, hfee, hnet, hout, hnew, hbudget, htreasury⟩ := h
  obtain ⟨huser, htotal⟩ := totalOut_eq hbps hfee hnet hout
  have hsum := checkedAdd_eq_some.1 hnew
  have hbudget := UInt64.le_iff_toNat_le.1 hbudget
  have htreasury := UInt64.le_iff_toNat_le.1 htreasury
  have hlt := c.instantRedeemBudgetUsdc.toNat_lt
  simp only [word_uint64, effectiveUsed_counter hw] at hsum
  refine ⟨huser, ?_⟩
  rw [← htotal, room]
  omega

theorem serves_of_outflow_le (hw : 0 < c.instantRedeemWindowSeconds.toNat) (hbps : bps ≤ 10000)
    (hused : c.counter.used c.window now ≤ c.instantRedeemBudgetUsdc.toNat)
    (hfit : outflowOf c bps gross.toNat ≤ room c treasury now)
    (huser : toUser.toNat = netOf bps gross.toNat) : Serves c bps treasury now gross toUser := by
  obtain ⟨fee, net, hfee, hnet⟩ := exists_net hbps gross
  have hsub := checkedSub_eq_some.1 hnet
  obtain ⟨totalOut, hout⟩ := exists_checkedAdd (a := net) (b := feeRouted c fee)
    (lt_of_le_of_lt (Nat.add_le_add_left (feeRouted_le c fee) _) (hsub ▸ Word.toNat_lt gross))
  obtain ⟨hnetOf, htotal⟩ := totalOut_eq hbps hfee hnet hout
  obtain rfl : net = toUser := UInt64.toNat_inj.1 (hnetOf.trans huser.symm)
  have hlt := c.instantRedeemBudgetUsdc.toNat_lt
  rw [← htotal, room] at hfit
  have hcount := @effectiveUsed_counter now c hw
  obtain ⟨newUsed, hnew⟩ := exists_checkedAdd (a := (rollWindow now c.instantWindowStart
    c.instantRedeemWindowSeconds c.instantUsedUsdc c.instantUsedPrevUsdc).effectiveUsed)
    (b := totalOut) (show _ < 2 ^ 64 by simp only [word_uint64]; omega)
  have hsum := checkedAdd_eq_some.1 hnew
  simp only [word_uint64] at hsum
  refine ⟨fee, totalOut, newUsed, hfee, hnet, hout, hnew, UInt64.le_iff_toNat_le.2 ?_,
    UInt64.le_iff_toNat_le.2 ?_⟩
  · omega
  · omega

/-- The maximum is paid exactly, unless the premium stays and no word is large enough. -/
theorem exists_serves_mostOf_iff (hw : 0 < c.instantRedeemWindowSeconds.toNat) (hbps : bps < 10000)
    (hused : c.counter.used c.window now ≤ c.instantRedeemBudgetUsdc.toNat) :
    (∃ gross toUser, Serves c bps treasury now gross toUser ∧
        toUser.toNat = mostOf c bps treasury now) ↔
      (c.feeRoutingDisabled = true →
        mostOf c bps treasury now * 10000 ≤ (2 ^ 64 - 1) * (10000 - bps.toNat)) := by
  have hle : bps ≤ 10000 := UInt16.le_of_lt hbps
  constructor
  · rintro ⟨gross, toUser, h, hmost⟩ -
    have hnet := (h.outflow_le hw hle).1
    calc mostOf c bps treasury now * 10000
      _ ≤ gross.toNat * (10000 - bps.toNat) :=
          (le_share_iff (by norm_num)).1 (hmost.symm.trans hnet).le
      _ ≤ (2 ^ 64 - 1) * (10000 - bps.toNat) :=
          Nat.mul_le_mul_right _ (Nat.le_sub_one_of_lt gross.toNat_lt)
  · intro hfit
    obtain ⟨gross, hout, hnet⟩ := exists_paying_mostOf hbps hfit
    have hsmall : netOf bps gross.toNat ≤ gross.toNat :=
      (net_share hle _).symm.trans_le (Nat.sub_le _ _)
    obtain ⟨toUser, huser⟩ := exists_word hsmall
    exact ⟨gross, toUser, serves_of_outflow_le hw hle hused hout huser, huser.trans hnet⟩

end Chain

section Client

variable {c : ConfigAccount} {bps : UInt16} {treasury : UInt64} {now : ℤ}

theorem net_nat (h : bps ≤ 10000) (amount : ℕ) :
    (amount : ℤ) - PublicApp.feeFromAmount amount bps.toNat = netOf bps amount := by
  rw [feeFromAmount_nat, ← net_share h, Nat.cast_sub (premium_le (UInt16.le_iff_toNat_le.1 h))]

theorem outflow_nat (h : bps ≤ 10000) (gross : ℕ) :
    PublicApp.redeemOutflowForGross c gross (some bps.toNat) = outflowOf c bps gross := by
  unfold PublicApp.redeemOutflowForGross outflowOf
  rw [Option.getD_some, net_nat h]
  split_ifs <;> rfl

theorem grossForNet_nat (h : bps ≤ 10000) (net : ℕ) :
    PublicApp.grossForNet net bps.toNat = whole (10000 - bps.toNat) 10000 net := by
  have hle : bps.toNat ≤ 10000 := UInt16.le_iff_toNat_le.1 h
  have hden : (10000 : ℤ) - bps.toNat = (10000 - bps.toNat : ℕ) := (Nat.cast_sub hle).symm
  rw [PublicApp.grossForNet, hden, whole, Int.ofNat_tdiv]
  rfl

theorem computeMax_eq [BnJs] (hopen : c.paused = false ∧ c.redemptionsEnabled = true)
    (hbps : bps ≤ 10000)
    (hused : PublicApp.effectiveRedeemUsed c now = some (c.counter.used c.window now : ℤ)) :
    PublicApp.computeMaxInstantRedeemableUsdc c (BN.ofU64 treasury) now (some bps.toNat) =
      some (mostOf c bps treasury now : ℤ) := by
  have hstays : ¬ ((c.paused || !c.redemptionsEnabled) = true) := by simp [hopen]
  have hclamp : ∀ z : ℤ, (if z < 0 then 0 else z) = max z 0 := fun z => by split_ifs <;> omega
  have hleast : ∀ t r : ℤ, (if t < r then t else r) = min t r := fun t r => by split_ifs <;> omega
  have hroom : max (min (BN.ofU64 treasury)
      (max (BN.ofU64 c.instantRedeemBudgetUsdc - (c.counter.used c.window now : ℤ)) 0)) 0 =
        (room c treasury now : ℤ) := by
    change max (min (treasury.toNat : ℤ) (max (c.instantRedeemBudgetUsdc.toNat - _ : ℤ) 0)) 0 = _
    unfold room
    omega
  simp only [PublicApp.computeMaxInstantRedeemableUsdc, if_neg hstays, hused, Option.bind_eq_bind,
    Option.bind_some, Option.pure_def, Option.getD_some, hclamp, hleast, hroom, net_nat hbps, mostOf]
  split_ifs <;> rfl

theorem classifyRedeem_instant_iff [BnJs] {gross : BN} {used out : ℕ} {kycAttested : Option Bool}
    (hopen : c.paused = false ∧ c.redemptionsEnabled = true) (hkyc : c.kycScopeFlags &&& 2 = 0)
    (hused : PublicApp.effectiveRedeemUsed c now = some (used : ℤ))
    (hout : PublicApp.redeemOutflowForGross c gross (some bps.toNat) = (out : ℤ)) :
    PublicApp.classifyRedeem c (BN.ofU64 treasury) gross now kycAttested (some bps.toNat) =
        some .instant ↔
      used + out ≤ c.instantRedeemBudgetUsdc.toNat ∧ out ≤ treasury.toNat := by
  have hstays : ¬ ((c.paused || !c.redemptionsEnabled) = true) := by simp [hopen]
  have hbudget : (used : ℤ) + out ≤ BN.ofU64 c.instantRedeemBudgetUsdc ↔
      used + out ≤ c.instantRedeemBudgetUsdc.toNat := Int.ofNat_le
  have htreasury : (out : ℤ) ≤ BN.ofU64 treasury ↔ out ≤ treasury.toNat := Int.ofNat_le
  simp only [PublicApp.classifyRedeem, if_neg hstays, hkyc, hused, hout, ne_eq, not_true_eq_false,
    false_and, if_false, Option.bind_eq_bind, Option.bind_some, Option.pure_def, ← not_le, hbudget,
    htreasury]
  split_ifs with hin hpaid
  · exact iff_of_true rfl ⟨hin, hpaid⟩
  · exact iff_of_false (by decide) fun h => hpaid h.2
  · exact iff_of_false (by decide) fun h => hin h.1

end Client

/-- Where doubles hold the time and the window's start, the advertised maximum is sound: no amount
that the program serves pays more. Some amount pays it exactly, unless the premium stays in the
treasury and no word is large enough. And the gross that the UI builds from it goes through at once
exactly where the window is not overdrawn. -/
theorem advertised_maximum [BnJs] {c : ConfigAccount} {now : ℤ} {bps : UInt16} {treasury : UInt64}
    (hw : INSTANT_WINDOW_MIN_SECONDS ≤ c.instantRedeemWindowSeconds ∧
      c.instantRedeemWindowSeconds ≤ INSTANT_WINDOW_MAX_SECONDS)
    (hopen : c.paused = false ∧ c.redemptionsEnabled = true) (hbps : bps < 10000)
    (hnow : Safe now) (hstart : Safe c.instantWindowStart) :
    ∃ most : ℕ, PublicApp.computeMaxInstantRedeemableUsdc c (BN.ofU64 treasury) now
        (some bps.toNat) = some (most : ℤ) ∧
      (∀ gross toUser, Serves c bps treasury now gross toUser → toUser.toNat ≤ most) ∧
      (0 < most → ((∃ gross toUser, Serves c bps treasury now gross toUser ∧ toUser.toNat = most) ↔
        (c.feeRoutingDisabled = true → most * 10000 ≤ (2 ^ 64 - 1) * (10000 - bps.toNat)))) ∧
      (0 < most → c.counter.used c.window now ≤ c.instantRedeemBudgetUsdc.toNat) ∧
      (c.kycScopeFlags &&& 2 = 0 → ∀ kycAttested,
        (PublicApp.classifyRedeem c (BN.ofU64 treasury) (PublicApp.grossForNet most bps.toNat) now
            kycAttested (some bps.toNat) = some .instant ↔
          c.counter.used c.window now ≤ c.instantRedeemBudgetUsdc.toNat)) := by
  have hle : bps ≤ 10000 := UInt16.le_of_lt hbps
  have hwpos : 0 < c.instantRedeemWindowSeconds.toNat :=
    lt_of_lt_of_le (by decide) (UInt32.le_iff_toNat_le.1 hw.1)
  obtain ⟨hpos, hcounted⟩ := @counted_counter now c hw hstart
  have hused := (effectiveRedeemUsed_eq_some hnow hpos).2 hcounted
  have hspare : 0 < mostOf c bps treasury now →
      c.counter.used c.window now ≤ c.instantRedeemBudgetUsdc.toNat := by
    intro hpos
    by_contra hover
    have hroom : room c treasury now = 0 := by unfold room; omega
    simp [mostOf, hroom, netOf, share] at hpos
  refine ⟨_, computeMax_eq hopen hle hused, ?_, ?_, hspare, ?_⟩
  · intro gross toUser h
    obtain ⟨huser, hfit⟩ := h.outflow_le hwpos hle
    exact huser.trans_le (netOf_le_mostOf hfit)
  · intro hpos
    exact exists_serves_mostOf_iff hwpos hbps (hspare hpos)
  · intro hkyc kycAttested
    have hfit := @outflowOf_whole_le c bps treasury now hbps
    rw [grossForNet_nat hle, classifyRedeem_instant_iff hopen hkyc hused (outflow_nat hle _)]
    unfold room at hfit
    omega

theorem advertised_maximum_promiseConfig :
    ∃ most : ℕ, PublicApp.computeMaxInstantRedeemableUsdc promiseConfig (BN.ofU64 3000) 2000
        (some (150 : UInt16).toNat) = some (most : ℤ) ∧
      (∃ gross toUser, Serves promiseConfig 150 3000 2000 gross toUser ∧ toUser.toNat = most) ∧
      PublicApp.classifyRedeem promiseConfig (BN.ofU64 3000)
        (PublicApp.grossForNet most (150 : UInt16).toNat) 2000 none (some (150 : UInt16).toNat) =
          some .instant := by
  have hmax : PublicApp.computeMaxInstantRedeemableUsdc promiseConfig (BN.ofU64 3000) 2000
      (some (150 : UInt16).toNat) = some (3000 : ℕ) := by decide +kernel
  obtain ⟨most, hmost, -, hpaid, -, hinstant⟩ := @advertised_maximum _ promiseConfig 2000 150 3000
    (by decide) (by decide) (by decide) (by decide) (by decide)
  obtain rfl : 3000 = most := Int.ofNat_inj.1 (Option.some.inj (hmax.symm.trans hmost))
  exact ⟨3000, hmost, (hpaid (by decide)).2 (by decide),
    (hinstant (by decide) none).2 (by decide +kernel)⟩

/-- Redemptions are open, but the window starts where doubles end. -/
def farOpenConfig : ConfigAccount :=
  { farConfig with paused := false, redemptionsEnabled := true }

/-- The budget was cut below what the window holds already. -/
def overdrawnConfig : ConfigAccount := { promiseConfig with instantRedeemBudgetUsdc := 100 }

/-- The premium stays in the treasury, and the budget is the largest word. -/
def boundlessConfig : ConfigAccount :=
  { promiseConfig with
    instantRedeemBudgetUsdc := 0xffffffffffffffff, instantUsedUsdc := 0, instantUsedPrevUsdc := 0 }

/-- The window is in its second period, which starts one second past the end of the doubles. -/
def lateConfig : ConfigAccount :=
  { promiseConfig with
    instantWindowStart := 2 ^ 53 - 86399, instantRedeemBudgetUsdc := 100000
    instantUsedUsdc := 86400, instantUsedPrevUsdc := 0 }

/-- The app throws; it rounds the window's start and expects a unit too much; its gross for a maximum
of nothing is over the budget; and no gross amount is large enough to pay the maximum. -/
theorem not_advertised_maximum :
    PublicApp.computeMaxInstantRedeemableUsdc farOpenConfig 3000 2000 (some 150) = none ∧
      (PublicApp.computeMaxInstantRedeemableUsdc lateConfig 20000 (2 ^ 53 + 2) (some 150) =
          some 13602 ∧
        ∀ gross, ¬ Serves lateConfig 150 20000 (2 ^ 53 + 2) gross 13602) ∧
      (PublicApp.computeMaxInstantRedeemableUsdc overdrawnConfig 3000 2000 (some 150) = some 0 ∧
        PublicApp.classifyRedeem overdrawnConfig 3000 (PublicApp.grossForNet 0 150) 2000 none
          (some 150) = some .limit) ∧
      PublicApp.computeMaxInstantRedeemableUsdc boundlessConfig 0xffffffffffffffff 2000 (some 150) =
        some 0xffffffffffffffff ∧
      ∀ gross, ¬ Serves boundlessConfig 150 0xffffffffffffffff 2000 gross 0xffffffffffffffff := by
  refine ⟨by decide +kernel, ⟨by decide +kernel, ?_⟩, ⟨by decide +kernel, by decide +kernel⟩,
    by decide +kernel, ?_⟩
  · intro gross h
    obtain ⟨huser, hfit⟩ := h.outflow_le (by decide) (by decide)
    have hmost : mostOf lateConfig 150 20000 (2 ^ 53 + 2) = 13601 := by decide +kernel
    have hle := netOf_le_mostOf hfit
    rw [← huser, hmost] at hle
    exact absurd hle (by decide)
  · rintro gross ⟨fee, -, -, hfee, hnet, -⟩
    have hsub := checkedSub_eq_some.1 hnet
    have hpremium := feeFromAmount_ok hfee
    have hlt := gross.toNat_lt
    have hmost : (0xffffffffffffffff : UInt64).toNat = 2 ^ 64 - 1 := rfl
    have hbps : (150 : UInt16).toNat = 150 := rfl
    simp only [word_uint64, hmost] at hsub
    simp only [premium, hbps] at hpremium
    omega

end DominionSilver
