import DominionSilver.Library.Listing
import DominionSilver.Spec.AdminClient
import DominionSilver.Proofs.Bounds
import DominionSilver.Proofs.Budget
import DominionSilver.Proofs.Clients
import DominionSilver.Proofs.Supply
import DominionSilver.Proofs.Unblock
import DominionSilver.Proofs.Wallets
import DominionSilver.Sanity.Numbers
import DominionSilver.Sanity.Roles

/-! What the admin console shows, against what the program does. The roster marks the guardians
whose powers the program accepts, and the dashboard shows the room that the budget check leaves. The
list of fee exemptions is as good as the number library's comparison of an expiry with the clock. -/

namespace DominionSilver

open Checked Doubles Listing Sliding

theorem lists_singleton {ν : Type} (k : Pubkey) (a : ν) :
    Lists [a] ((∅ : Accounts Pubkey ν).insert k a).lookup := by
  intro b
  rw [List.mem_singleton]
  constructor
  · rintro rfl
    exact ⟨k, Finmap.lookup_insert _⟩
  · rintro ⟨j, hj⟩
    rcases Accounts.lookup_insert_cases hj with ⟨-, h⟩ | ⟨-, h⟩
    · exact h.symm
    · rw [Finmap.lookup_empty] at h
      cases h

section Guardians

variable {admin : Pubkey} {now : ℤ}

/-- The row of a guardian's account. -/
def rosterRow (admin : Pubkey) (now : ℤ) (a : GuardianAccount) : AdminApp.GuardianView where
  guardian := a.guardian
  addedAt := a.addedAt
  cooldownUntil := a.cooldownUntil
  pendingRemovalAt := a.pendingRemovalAt
  selfCancelUsed := a.selfCancelUsed
  active := a.mayAct a.guardian admin
  inertBecauseAdmin := a.guardian = admin
  removalExpired := removalScheduleExpired a.pendingRemovalAt now

theorem removalExpired_eq [BnJs] (hnow : Safe now) (scheduledAt : ℤ) :
    AdminApp.removalExpired now scheduledAt =
      if Safe scheduledAt then some (removalScheduleExpired scheduledAt now) else none := by
  by_cases hzero : scheduledAt = 0
  · subst hzero
    rfl
  rw [AdminApp.removalExpired, if_neg hzero, BnJs.toNumber_eq]
  by_cases hsafe : Safe scheduledAt
  · have hsat : saturatingI64 (scheduledAt + GUARDIAN_REMOVAL_EXEC_WINDOW_SECONDS) =
        scheduledAt + AdminApp.GUARDIAN_REMOVAL_EXEC_WINDOW_SECONDS := by
      unfold Safe at hsafe
      unfold saturatingI64 GUARDIAN_REMOVAL_EXEC_WINDOW_SECONDS
        AdminApp.GUARDIAN_REMOVAL_EXEC_WINDOW_SECONDS
      omega
    have hlt : ofInt (scheduledAt + AdminApp.GUARDIAN_REMOVAL_EXEC_WINDOW_SECONDS) < now ↔
        scheduledAt + AdminApp.GUARDIAN_REMOVAL_EXEC_WINDOW_SECONDS < now := by
      rw [← not_le, le_ofInt_iff hnow, not_le]
    simp [hsafe, removalScheduleExpired, hzero, hsat, hlt]
  · rw [if_neg hsafe, if_neg hsafe]
    rfl

theorem guardianView_eq_some [BnJs] (hnow : Safe now) {a : GuardianAccount} {v : AdminApp.GuardianView} :
    AdminApp.guardianView (some admin) now a = some v ↔
      Safe a.pendingRemovalAt ∧ v = rosterRow admin now a := by
  have hactive : (decide (a.cooldownUntil = 0) && !decide (a.guardian = admin)) =
      a.mayAct a.guardian admin := by
    simp [GuardianAccount.mayAct]
  simp only [AdminApp.guardianView, Option.bind_eq_bind, removalExpired_eq hnow, hactive]
  by_cases hsafe : Safe a.pendingRemovalAt
  · rw [if_pos hsafe, Option.bind_some, Option.pure_def, Option.some.injEq]
    exact ⟨fun h => ⟨hsafe, h.symm⟩, fun h => h.2.symm⟩
  · rw [if_neg hsafe, Option.bind_none]
    refine ⟨fun h => ?_, fun h => absurd h.1 hsafe⟩
    cases h

theorem fetchGuardians_eq_none [BnJs] (hnow : Safe now) {rows : List GuardianAccount} :
    AdminApp.fetchGuardians rows (some admin) now = none ↔
      ∃ a ∈ rows, ¬ Safe a.pendingRemovalAt :=
  sorted_eq_none fun _ _ => guardianView_eq_some hnow

theorem fetchGuardians_eq_some [BnJs] (hnow : Safe now) {rows : List GuardianAccount}
    {views : List AdminApp.GuardianView}
    (h : AdminApp.fetchGuardians rows (some admin) now = some views) :
    views.Pairwise (fun x y => y.addedAt ≤ x.addedAt) ∧
      views.Perm (rows.map (rosterRow admin now)) := by
  refine (sorted_eq_some (fun _ _ => guardianView_eq_some hnow) ?_ ?_ h).imp_left
    (List.Pairwise.imp of_decide_eq_true)
  · intro x y z hxy hyz
    simp only [decide_eq_true_eq] at hxy hyz ⊢
    exact hyz.trans hxy
  · intro x y
    simp only [Bool.or_eq_true, decide_eq_true_eq]
    exact le_total _ _

variable {rt : Runtime} {w w' : World} {e : Event} {k : Pubkey} {g : GuardianAccount}

theorem guardianCount_pos (h : Reachable rt w) : 0 < w.config.guardianCount := by
  refine invariant_of_reachable (I := fun w => 0 < w.config.guardianCount) ?_ ?_ ?_ h
  · intro now w h₀
    obtain ⟨args, g, t, m, d⟩ := deployed_of_initialized h₀
    obtain ⟨usdc, -, rfl⟩ := d.state
    exact show (0 : UInt8) < 1 by decide
  · intro now signer ix w w' hw he
    cases he with
    | addGuardian =>
      have hadd := toNat_saturatingAdd w.config.guardianCount 1
      have hpos := UInt8.lt_iff_toNat_lt.1 hw
      have hlt := w.config.guardianCount.toNat_lt
      simp only [word_uint8, UInt8.toNat_one] at hadd
      refine UInt8.lt_iff_toNat_lt.2 ?_
      simp only [UInt8.toNat_zero] at hpos ⊢
      have hsize : Word.size UInt8 = 256 := rfl
      omega
    | finalizeGuardianRemoval _ _ _ _ _ _ floor _ count =>
      have hfloor := UInt8.lt_iff_toNat_lt.1 floor
      have hone : MIN_ACTIVE_GUARDIANS.toNat = 1 := rfl
      exact UInt8.lt_iff_toNat_lt.2 (by simp only [UInt8.toNat_zero]; omega)
    | execute _ _ _ applied => exact (SameRoles.applied applied).guardianCount ▸ hw
    | _ => exact hw
  · intro w w' hw he
    exact he.config ▸ hw

/-- The program accepts the powers of guardian `k`. -/
def MayAct (w : World) (k : Pubkey) : Prop :=
  ∃ g, w.guardians.lookup k = some g ∧ g.mayAct k w.config.admin = true

theorem unpause_accepted_iff (hcount : 0 < w.config.guardianCount) {c : Call} {digest : Bytes32}
    (hix : c.ix = .unpause digest k) :
    (∃ w', exec rt c w = .ok w') ↔ rt.canSign c.signer = true ∧ w.config.admin = c.signer ∧
      MayAct w k ∧ rt.hash w.config.readinessBytes = digest := by
  simp only [exec, hix, dispatch, unpauseHandler, bind_ok, constrain_ok, requireAdmin_ok,
    existing_ok, require_ok, exists_unit, pure_ok, MayAct, GuardianAccount.mayAct,
    Bool.and_eq_true, decide_eq_true_eq]
  constructor
  · rintro ⟨_, hs, ha, g, hl, hown, hcool, -, hindep, hready, -⟩
    exact ⟨hs, ha, ⟨g, hl, ⟨hown, hcool⟩, hindep⟩, hready⟩
  · rintro ⟨hs, ha, ⟨g, hl, ⟨hown, hcool⟩, hindep⟩, hready⟩
    exact ⟨_, hs, ha, g, hl, hown, hcool, hcount, hindep, hready, rfl⟩

/-- A scheduled removal is one of a guardian that is not cooling down. -/
def ScheduledActive (w : World) : Prop :=
  ∀ k g, w.guardians.lookup k = some g → g.pendingRemovalAt ≠ 0 → g.cooldownUntil = 0

theorem ScheduledActive.step (hw : ScheduledActive w) (h : Step rt w e w') :
    ScheduledActive w' := by
  intro k a ha hp
  rcases guardian_cases h k with ⟨c, g, rfl, hl, hr⟩ | ⟨-, hl⟩
  · obtain rfl := Option.some.inj (hl.symm.trans ha)
    cases hr with
    | add => rfl
    | remove _ _ _ active => exact active
    | finalize => exact absurd rfl hp
    | cancel => exact absurd rfl hp
  · exact hw k a (hl ▸ ha) hp

theorem scheduledActive_of_reachable (h : Reachable rt w) : OwnKeys w ∧ ScheduledActive w := by
  obtain ⟨now₀, w₀, es, h₀, run⟩ := h
  refine ⟨run.invariant (ownKeys_initial h₀) OwnKeys.step,
    run.invariant (I := ScheduledActive) ?_ ScheduledActive.step⟩
  intro k g hl hp
  rw [account_initial h₀ hl]

/-- The guardian that the deployment appoints. -/
def firstGuardian : GuardianAccount := ⟨Reference.guardian, 1000, 0, 0, false⟩

theorem lists_start : Lists [firstGuardian] Reference.start.guardians.lookup := by
  have hstart : Reference.start.guardians =
      (∅ : Accounts Pubkey GuardianAccount).insert Reference.guardian firstGuardian := by
    decide +kernel
  rw [hstart]
  exact lists_singleton _ _

end Guardians

section FeeExempts

variable {rt : Runtime} {w : World} {now : ℤ} {rows : List FeeExemptAccount}

def exemptionRow (a : FeeExemptAccount) (active : Bool) : AdminApp.FeeExemptView :=
  ⟨a.wallet, a.flags.toNat, a.addedAt, a.addedBy, a.expiresAt, active⟩

theorem feeExemptView_eq_some [BnJs] {a : FeeExemptAccount} {v : AdminApp.FeeExemptView} :
    AdminApp.feeExemptView now a = some v ↔ BnJs.gtn a.expiresAt now ≠ none ∧
      v = exemptionRow a ((BnJs.gtn a.expiresAt now).getD false) := by
  unfold AdminApp.feeExemptView
  cases BnJs.gtn a.expiresAt now with
  | none => exact ⟨fun h => (nomatch h), fun h => absurd rfl h.1⟩
  | some active =>
    refine ⟨fun h => ⟨Option.some_ne_none _, (Option.some.inj h).symm⟩, fun h => ?_⟩
    exact congrArg some h.2.symm

theorem fetchFeeExempts_eq_none [BnJs] :
    AdminApp.fetchFeeExempts rows now = none ↔
      ∃ a ∈ rows, ¬ BnJs.gtn a.expiresAt now ≠ none :=
  sorted_eq_none fun _ _ => feeExemptView_eq_some

theorem fetchFeeExempts_eq_some [BnJs] {views : List AdminApp.FeeExemptView}
    (h : AdminApp.fetchFeeExempts rows now = some views) :
    views.Pairwise (fun x y => x.expiresAt ≤ y.expiresAt) ∧
      views.Perm (rows.map fun a =>
        exemptionRow a ((BnJs.gtn a.expiresAt now).getD false)) := by
  refine (sorted_eq_some (fun _ _ => feeExemptView_eq_some) ?_ ?_ h).imp_left
    (List.Pairwise.imp of_decide_eq_true)
  · intro x y z hxy hyz
    simp only [decide_eq_true_eq] at hxy hyz ⊢
    exact hxy.trans hyz
  · intro x y
    simp only [Bool.or_eq_true, decide_eq_true_eq]
    exact le_total _ _

theorem effectivePremiumBps_exemptionRow {a : FeeExemptAccount} {active : Bool}
    (hactive : active = true ↔ a.isExpired now = false) (bps : UInt16) (side : Side) :
    effectivePremiumBps bps (some a) a.wallet side now =
      if active = true ∧ (exemptionRow a active).flags &&& side.bit.toNat ≠ 0 then 0 else bps := by
  have hflag : (exemptionRow a active).flags &&& side.bit.toNat ≠ 0 ↔
      side.isSetIn a.flags = true := by
    rw [Side.isSetIn, decide_eq_true_eq, ne_eq, ne_eq, ← UInt8.toNat_inj, UInt8.toNat_and]
    rfl
  simp only [effectivePremiumBps, FeeExemptAccount.exempts, hflag, hactive, decide_true,
    Bool.true_and, Bool.and_eq_true, Bool.not_eq_true', and_comm]

/-- The list fails exactly when the library does not compare some expiry with the clock. Else it has
every exemption, soonest to expire first, each marked as the comparison came out. A clock of 26 bits
is compared with any number: the list is there, and the program waives the premium of a wallet on
the sides of its row exactly where this is marked. -/
theorem exemptions_listed [BnJs] (h : Reachable rt w) (hrows : Lists rows w.feeExempts.lookup) :
    (AdminApp.fetchFeeExempts rows now = none ↔
      ∃ u a, w.feeExempts.lookup u = some a ∧ BnJs.gtn a.expiresAt now = none) ∧
    (∀ views, AdminApp.fetchFeeExempts rows now = some views →
      views.Pairwise (fun x y => x.expiresAt ≤ y.expiresAt) ∧
      (∀ u, (∃ v ∈ views, v.wallet = u) ↔ (w.feeExempts.lookup u).isSome) ∧
      ∀ v ∈ views, ∃ a, w.feeExempts.lookup v.wallet = some a ∧ v = exemptionRow a v.active ∧
        BnJs.gtn a.expiresAt now = some v.active) ∧
    (0 ≤ now → now < 2 ^ 26 → ∃ views, AdminApp.fetchFeeExempts rows now = some views ∧
      ∀ v ∈ views, ∀ bps side,
        effectivePremiumBps bps (w.feeExempts.lookup v.wallet) v.wallet side now =
          if v.active = true ∧ v.flags &&& side.bit.toNat ≠ 0 then 0 else bps) := by
  have hnames := exemption_names h
  have hnone : AdminApp.fetchFeeExempts rows now = none ↔
      ∃ u a, w.feeExempts.lookup u = some a ∧ BnJs.gtn a.expiresAt now = none := by
    rw [fetchFeeExempts_eq_none]
    constructor
    · rintro ⟨a, ha, hc⟩
      obtain ⟨u, hu⟩ := (hrows a).1 ha
      exact ⟨u, a, hu, not_not.1 hc⟩
    · rintro ⟨u, a, hu, hc⟩
      exact ⟨a, (hrows a).2 ⟨u, hu⟩, not_not.2 hc⟩
  have hsome : ∀ views, AdminApp.fetchFeeExempts rows now = some views →
      views.Pairwise (fun x y => x.expiresAt ≤ y.expiresAt) ∧
      (∀ u, (∃ v ∈ views, v.wallet = u) ↔ (w.feeExempts.lookup u).isSome) ∧
      ∀ v ∈ views, ∃ a, w.feeExempts.lookup v.wallet = some a ∧ v = exemptionRow a v.active ∧
        BnJs.gtn a.expiresAt now = some v.active := by
    intro views hviews
    obtain ⟨hsorted, hperm⟩ := fetchFeeExempts_eq_some hviews
    refine ⟨hsorted, key_iff hrows hnames hperm fun _ => rfl, fun v hv => ?_⟩
    obtain ⟨a, ha, rfl⟩ := (mem_iff hrows hnames hperm).1 hv
    refine ⟨a, ha, rfl, ?_⟩
    cases hc : BnJs.gtn a.expiresAt now with
    | none =>
      rw [hnone.2 ⟨_, a, ha, hc⟩] at hviews
      cases hviews
    | some active => rfl
  refine ⟨hnone, hsome, fun hpos hshort => ?_⟩
  have hcompared : ∀ a : FeeExemptAccount,
      BnJs.gtn a.expiresAt now = some (decide (now < a.expiresAt)) :=
    fun a => BnJs.gtn_eq a.expiresAt now hpos hshort
  have hread : AdminApp.fetchFeeExempts rows now ≠ none := by
    intro hfails
    obtain ⟨u, a, -, hc⟩ := hnone.1 hfails
    cases (hcompared a).symm.trans hc
  obtain ⟨views, hviews⟩ := Option.ne_none_iff_exists'.1 hread
  refine ⟨views, hviews, fun v hv bps side => ?_⟩
  obtain ⟨a, ha, hrow, hc⟩ := (hsome views hviews).2.2 v hv
  have hactive : v.active = true ↔ a.isExpired now = false := by
    rw [← Option.some.inj ((hcompared a).symm.trans hc)]
    simp only [decide_eq_true_eq, FeeExemptAccount.isExpired, Bool.or_eq_false_iff,
      decide_eq_false_iff_not]
    omega
  have hpremium := effectivePremiumBps_exemptionRow hactive bps side
  rw [← hrow] at hpremium
  rw [ha, ← hpremium, hrow]
  rfl

/-- The exemption that the grant makes. -/
def grantedExemption : FeeExemptAccount :=
  ⟨Reference.user, SIDE_MINT_BIT, 2500, Reference.admin, 9000⟩

/-- It has lapsed, and is shown so. -/
theorem exemptions_listed_grantCalls :
    ∃ v, AdminApp.fetchFeeExempts [grantedExemption] 9000 = some [v] ∧ v.active = false ∧
      effectivePremiumBps 150 (some grantedExemption) Reference.user .mint 9000 = 150 := by
  have hgranted : (Reference.final Reference.runtime Reference.start grantCalls).feeExempts =
      (∅ : Accounts Pubkey FeeExemptAccount).insert Reference.user grantedExemption := by
    decide +kernel
  have hshown : AdminApp.fetchFeeExempts [grantedExemption] 9000 =
      some [exemptionRow grantedExemption false] := by
    have hrow : AdminApp.feeExemptView 9000 grantedExemption =
        some (exemptionRow grantedExemption false) := by
      decide +kernel
    simp [AdminApp.fetchFeeExempts, hrow]
  obtain ⟨views, hviews, hall⟩ := (@exemptions_listed _ _ 9000 _ _
    (@Reference.reachable_final grantCalls (by decide +kernel))
    (hgranted ▸ lists_singleton Reference.user grantedExemption)).2.2 (by decide) (by decide)
  obtain rfl := Option.some.inj (hshown.symm.trans hviews)
  have hcharged := hall _ List.mem_cons_self 150 .mint
  rw [hgranted] at hcharged
  exact ⟨_, hshown, rfl, hcharged⟩

end FeeExempts

section Dashboard

variable {rt : Runtime} {w w' ws : World} {es : List Entry} {c : ConfigAccount} {now : ℤ}
  {balanceInfo supplyInfo : AdminApp.SettledAmount} {snap : AdminApp.DashboardSnapshot}

/-- The budget check of a redemption that pays out `out` at `t`. -/
def WithinBudget (c : ConfigAccount) (t : ℤ) (out : UInt64) : Prop :=
  ∃ newUsed, checkedAdd (rollWindow t c.instantWindowStart c.instantRedeemWindowSeconds
    c.instantUsedUsdc c.instantUsedPrevUsdc).effectiveUsed out = some newUsed ∧
      newUsed ≤ c.instantRedeemBudgetUsdc

/-- The most that it lets through. -/
def budgetRoom (c : ConfigAccount) (t : ℤ) : ℕ :=
  c.instantRedeemBudgetUsdc.toNat - (rollWindow t c.instantWindowStart c.instantRedeemWindowSeconds
    c.instantUsedUsdc c.instantUsedPrevUsdc).effectiveUsed.toNat

theorem withinBudget_iff {t : ℤ} {out : UInt64} (hpos : 0 < out) :
    WithinBudget c t out ↔ out.toNat ≤ budgetRoom c t := by
  have hpos := UInt64.lt_iff_toNat_lt.1 hpos
  have hlt := c.instantRedeemBudgetUsdc.toNat_lt
  simp only [UInt64.toNat_zero] at hpos
  unfold WithinBudget budgetRoom
  constructor
  · rintro ⟨newUsed, hnew, hle⟩
    have hsum := checkedAdd_eq_some.1 hnew
    have hle := UInt64.le_iff_toNat_le.1 hle
    simp only [word_uint64] at hsum
    omega
  · intro hle
    obtain ⟨newUsed, hnew⟩ := exists_checkedAdd (a := (rollWindow t c.instantWindowStart
      c.instantRedeemWindowSeconds c.instantUsedUsdc c.instantUsedPrevUsdc).effectiveUsed) (b := out)
      (show _ < 2 ^ 64 by simp only [word_uint64]; omega)
    have hsum := checkedAdd_eq_some.1 hnew
    simp only [word_uint64] at hsum
    exact ⟨newUsed, hnew, UInt64.le_iff_toNat_le.2 (by omega)⟩

/-- The remaining budget is what the program leaves, also where the program's count saturates. -/
theorem remaining_eq (hw : 0 < c.window) :
    (if (c.instantRedeemBudgetUsdc.toNat : ℤ) - c.counter.used c.window now < 0 then (0 : ℤ)
      else c.instantRedeemBudgetUsdc.toNat - c.counter.used c.window now) = budgetRoom c now := by
  have hlt := c.instantRedeemBudgetUsdc.toNat_lt
  rw [budgetRoom, effectiveUsed_counter (Int.natCast_pos.1 hw)]
  split_ifs <;> omega

theorem budgetRoom_mono {t : ℤ} (hw : 0 < c.window) (hle : now ≤ t) :
    budgetRoom c now ≤ budgetRoom c t := by
  unfold budgetRoom
  rw [effectiveUsed_counter (Int.natCast_pos.1 hw), effectiveUsed_counter (Int.natCast_pos.1 hw)]
  exact Nat.sub_le_sub_left (min_le_min_right _ (Counter.used_anti hw hle)) _

theorem maxSilvSupply_of_run (run : Run rt w es w') :
    w'.config.maxSilvSupply ≤ w.config.maxSilvSupply := by
  refine run.related (R := fun w w' => w'.config.maxSilvSupply ≤ w.config.maxSilvSupply)
    (I := fun _ => True) (p := fun _ => True) (fun _ => UInt64.le_refl _)
    (fun hab hbc => UInt64.le_trans hbc hab) trivial (fun _ _ => trivial) ?_ fun _ _ => trivial
  intro w e w' _ h _
  rcases step_cases h with ⟨c, -, -, he⟩ | ⟨-, he⟩
  · exact maxSilvSupply_of_effect he
  · exact he.config ▸ UInt64.le_refl _

theorem supplyUtilizationBps_eq [BnJs] {supply cap : UInt64} (hcap : cap ≠ 0) (hle : supply ≤ cap) :
    AdminApp.supplyUtilizationBps (BN.ofU64 supply) cap =
      some (some ((supply.toNat * 10000 / cap.toNat : ℕ) : ℤ)) ∧
    supply.toNat * 10000 / cap.toNat ≤ 10000 := by
  have hpos : 0 < cap.toNat := Nat.pos_of_ne_zero fun h0 => hcap (UInt64.toNat_inj.1 h0)
  have hle := UInt64.le_iff_toNat_le.1 hle
  have hshare : supply.toNat * 10000 / cap.toNat ≤ 10000 :=
    Nat.div_le_of_le_mul (Nat.mul_le_mul_right _ hle)
  have hdiv : (BN.ofU64 supply * 10000).tdiv (BN.ofU64 cap) =
      ((supply.toNat * 10000 / cap.toNat : ℕ) : ℤ) := by
    rw [Int.ofNat_tdiv, Nat.cast_mul]
    rfl
  have hsafe : Safe ((supply.toNat * 10000 / cap.toNat : ℕ) : ℤ) :=
    ⟨lt_of_lt_of_le (by decide) (Int.natCast_nonneg _),
      lt_of_le_of_lt (Int.ofNat_le.2 hshare) (by decide)⟩
  refine ⟨?_, hshare⟩
  rw [AdminApp.supplyUtilizationBps, if_neg hcap, hdiv, BnJs.toNumber_eq, if_pos hsafe]
  rfl

/-- The snapshot in the program's terms. -/
def snapshotOf (c : ConfigAccount) (now : ℤ) (amounts : AdminApp.TokenAmounts)
    (supplyUtilizationBps : Option ℤ) : AdminApp.DashboardSnapshot where
  cfg := c
  treasuryUsdc := amounts.treasuryUsdc
  silvSupply := amounts.silvSupply
  supplyUtilizationBps
  instantBudgetRemainingUsdc := (budgetRoom c now : ℤ)
  effectiveUsedUsdc := (c.counter.used c.window now : ℤ)
  instantWindowExpired :=
    !decide (c.instantWindowStart = 0) && decide (2 * c.window ≤ now - c.instantWindowStart)
  instantWindowNeverStarted := c.instantWindowStart = 0
  treasuryFloatOk := BN.ofU64 c.treasuryMinFloatUsdc ≤ amounts.treasuryUsdc
  degraded := amounts.degraded

theorem fetchDashboardSnapshot_eq [BnJs] {u : Option ℤ}
    (hwindow : INSTANT_WINDOW_MIN_SECONDS ≤ c.instantRedeemWindowSeconds ∧
      c.instantRedeemWindowSeconds ≤ INSTANT_WINDOW_MAX_SECONDS) (hnow : Safe now)
    (hutil : AdminApp.supplyUtilizationBps
      (AdminApp.readTokenAmounts balanceInfo supplyInfo).silvSupply c.maxSilvSupply = some u) :
    AdminApp.fetchDashboardSnapshot (some c) balanceInfo supplyInfo now =
      if Safe c.instantWindowStart then
        some (some (snapshotOf c now (AdminApp.readTokenAmounts balanceInfo supplyInfo) u))
      else none := by
  unfold AdminApp.fetchDashboardSnapshot
  simp only [hutil, Option.bind_eq_bind, Option.bind_some, BnJs.toNumber_eq]
  by_cases hstart : Safe c.instantWindowStart
  · obtain ⟨hw, hcounted⟩ := @counted_counter now c hwindow hstart
    have hused := (effectiveUsedUsdc_eq_some hnow hw).2 hcounted
    obtain ⟨-, hlt⟩ := window_lt c
    have hsafe : Safe (2 * c.window) := by unfold Safe; omega
    have hexpired : 0 < c.window ∧
        ofInt (2 * c.window) ≤ max 0 (ofInt (now - c.instantWindowStart)) ↔
          2 * c.window ≤ now - c.instantWindowStart := by
      rw [ofInt_of_safe hsafe, le_max_iff, le_ofInt_iff hsafe]
      omega
    simp only [if_pos hstart, Option.bind_some, hused, hexpired]
    rw [snapshotOf, ← remaining_eq hw]
    rfl
  · simp only [if_neg hstart, Option.bind_none]

theorem readTokenAmounts_degraded :
    (AdminApp.readTokenAmounts balanceInfo supplyInfo).degraded = [] ↔
      balanceInfo.isOk = true ∧ supplyInfo.isOk = true := by
  cases balanceInfo <;> cases supplyInfo <;> simp [AdminApp.readTokenAmounts, Except.isOk,
    Except.toBool]

theorem exists_utilization [BnJs] {supply cap : UInt64} (hle : supply ≤ cap)
    (hsupply : ∀ s, supplyInfo = .ok s → s = BN.ofU64 supply) :
    ∃ u, AdminApp.supplyUtilizationBps (AdminApp.readTokenAmounts balanceInfo supplyInfo).silvSupply
        cap = some u ∧ (u = none ↔ cap = 0) ∧ ∀ bps, u = some bps → 0 ≤ bps ∧ bps ≤ 10000 ∧
          (supplyInfo = .ok (BN.ofU64 supply) →
            bps = ((supply.toNat * 10000 / cap.toNat : ℕ) : ℤ)) := by
  obtain ⟨shown, hshown, hcapped, hread⟩ : ∃ shown : UInt64,
      (AdminApp.readTokenAmounts balanceInfo supplyInfo).silvSupply = BN.ofU64 shown ∧
        shown ≤ cap ∧ (supplyInfo = .ok (BN.ofU64 supply) → shown = supply) := by
    cases hs : supplyInfo with
    | ok s => exact ⟨supply, hsupply s hs, hle, fun _ => rfl⟩
    | error reason => exact ⟨0, rfl, UInt64.zero_le, fun h => by cases h⟩
  rw [hshown]
  by_cases hcap : cap = 0
  · refine ⟨none, if_pos hcap, iff_of_true rfl hcap, ?_⟩
    intro bps h
    cases h
  · obtain ⟨heq, hbound⟩ := supplyUtilizationBps_eq hcap hcapped
    refine ⟨_, heq, iff_of_false (by simp) hcap, ?_⟩
    rintro bps ⟨⟩
    refine ⟨Int.natCast_nonneg _, Int.ofNat_le.2 hbound, fun hok => ?_⟩
    rw [hread hok]

theorem budgetRoom_expired (hw : 0 < c.window) (hstart : c.instantWindowStart ≠ 0)
    (hpast : 2 * c.window ≤ now - c.instantWindowStart) :
    budgetRoom c now = c.instantRedeemBudgetUsdc.toNat := by
  have hused : c.counter.used c.window now = 0 := by
    unfold Counter.used
    rw [Counter.roll_two hstart hpast]
    simp [weighted]
  rw [budgetRoom, effectiveUsed_counter (Int.natCast_pos.1 hw), hused]
  rfl

/-- What the dashboard says of the state `w` whose config it read, and of the later state `ws` whose
supply it read. -/
structure DashboardAsIs (w ws : World) (now : ℤ) (balanceInfo supplyInfo : AdminApp.SettledAmount)
    (snap : AdminApp.DashboardSnapshot) : Prop where
  remaining : ∀ out : UInt64, 0 < out →
    (WithinBudget w.config now out ↔ (out.toNat : ℤ) ≤ snap.instantBudgetRemainingUsdc)
  kept : ∀ t, now ≤ t → ∀ out : UInt64, 0 < out →
    (out.toNat : ℤ) ≤ snap.instantBudgetRemainingUsdc → WithinBudget w.config t out
  expired : snap.instantWindowExpired = true →
    snap.instantBudgetRemainingUsdc = w.config.instantRedeemBudgetUsdc.toNat
  uncapped : snap.supplyUtilizationBps = none ↔ w.config.maxSilvSupply = 0
  utilization : ∀ bps, snap.supplyUtilizationBps = some bps → 0 ≤ bps ∧ bps ≤ 10000 ∧
    (supplyInfo = .ok (BN.ofU64 ws.silvMint.supply) →
      bps = (ws.silvMint.supply.toNat * 10000 / w.config.maxSilvSupply.toNat : ℕ))
  float : ∀ b : UInt64, balanceInfo = .ok (BN.ofU64 b) →
    (snap.treasuryFloatOk = true ↔ w.config.treasuryMinFloatUsdc ≤ b)
  degraded : snap.degraded = [] ↔ balanceInfo.isOk = true ∧ supplyInfo.isOk = true

/-- The dashboard fails exactly when a double does not hold the start of the window. Else the program
lets through what it shows as remaining and no more, and does so at any later time. The supply may
have been read later than the cap, and still never shows as more than the cap. -/
theorem dashboard_exact [BnJs] (h : Reachable rt w) (run : Run rt w es ws) (hnow : Safe now)
    (hsupply : ∀ s, supplyInfo = .ok s → s = BN.ofU64 ws.silvMint.supply) :
    (AdminApp.fetchDashboardSnapshot (some w.config) balanceInfo supplyInfo now = none ↔
      ¬ Safe w.config.instantWindowStart) ∧
    ∀ r, AdminApp.fetchDashboardSnapshot (some w.config) balanceInfo supplyInfo now = some r →
      ∃ snap, r = some snap ∧ DashboardAsIs w ws now balanceInfo supplyInfo snap := by
  have hwindow := (bounded_of_reachable h).instantRedeemWindowSeconds
  have hcapped := invariant_of_reachable supplyCapped_initial SupplyCapped.effect
    SupplyCapped.external (h.append run)
  obtain ⟨u, hutil, huncapped, hshare⟩ := @exists_utilization balanceInfo _ _ _ _
    (UInt64.le_trans (UInt64.le_iff_toNat_le.2 hcapped.supply) (maxSilvSupply_of_run run)) hsupply
  rw [fetchDashboardSnapshot_eq hwindow hnow hutil]
  by_cases hstart : Safe w.config.instantWindowStart
  · obtain ⟨hw, -⟩ := @counted_counter now w.config hwindow hstart
    rw [if_pos hstart]
    refine ⟨iff_of_false (by simp) (not_not.2 hstart), ?_⟩
    rintro r ⟨⟩
    refine ⟨_, rfl, ?_, ?_, ?_, huncapped, hshare, ?_, readTokenAmounts_degraded⟩
    · intro out hpos
      exact (withinBudget_iff hpos).trans Int.ofNat_le.symm
    · intro t ht out hpos hle
      exact (withinBudget_iff hpos).2 ((Int.ofNat_le.1 hle).trans (budgetRoom_mono hw ht))
    · intro hexpired
      simp only [snapshotOf, Bool.and_eq_true, Bool.not_eq_true', decide_eq_true_eq,
        decide_eq_false_iff_not] at hexpired
      exact congrArg Nat.cast (budgetRoom_expired hw hexpired.1 hexpired.2)
    · rintro b rfl
      exact decide_eq_true_iff.trans ofU64_le
  · rw [if_neg hstart]
    exact ⟨iff_of_true rfl hstart, fun _ h => by cases h⟩

/-- The supply of a market that traded cannot be read. -/
theorem dashboard_exact_tradeCalls :
    ∃ snap, AdminApp.fetchDashboardSnapshot
        (some (Reference.final Reference.runtime Reference.start Reference.tradeCalls).config)
        (.ok (BN.ofU64 1000)) (.error "timeout") 4000 = some (some snap) ∧
      snap.degraded ≠ [] ∧
      ∀ out : UInt64, 0 < out →
        (WithinBudget (Reference.final Reference.runtime Reference.start Reference.tradeCalls).config
          4000 out ↔ (out.toNat : ℤ) ≤ snap.instantBudgetRemainingUsdc) := by
  have hreach : Reachable Reference.runtime
      (Reference.final Reference.runtime Reference.start Reference.tradeCalls) :=
    Reference.reachable_final (by decide +kernel)
  have hstart : Safe (Reference.final Reference.runtime Reference.start
      Reference.tradeCalls).config.instantWindowStart := by decide +kernel
  generalize Reference.final Reference.runtime Reference.start Reference.tradeCalls = w
    at hreach hstart ⊢
  have hunread : ∀ s, (Except.error "timeout" : AdminApp.SettledAmount) = .ok s →
      s = BN.ofU64 w.silvMint.supply := by
    intro s h
    cases h
  obtain ⟨hnone, hsome⟩ := @dashboard_exact _ _ _ [] 4000 (.ok (BN.ofU64 1000)) _ _ hreach .nil
    (by decide) hunread
  obtain ⟨r, hr⟩ := Option.ne_none_iff_exists'.1 fun h => hnone.1 h hstart
  obtain ⟨snap, rfl, hsnap⟩ := hsome r hr
  refine ⟨snap, hr, fun h => ?_, hsnap.remaining⟩
  obtain ⟨-, hread⟩ := hsnap.degraded.1 h
  cases hread

end Dashboard

end DominionSilver
