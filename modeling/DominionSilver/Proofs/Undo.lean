import DominionSilver.Proofs.Drain
import DominionSilver.Proofs.Handover
import DominionSilver.Proofs.Views
import DominionSilver.Spec.Guard

/-! What it takes to undo what the scripts' guard lets through unnamed. The guard means to pass only
what is cheap to undo, and so it does but for three actions, whose effect the program keeps for a
day: a new guardian, the end of a removal and the end of a queued change. -/

namespace DominionSilver

open Checked Bytes Tokens

theorem letThrough_of {ix : Instruction} {action : String} (h : actionOf ix = some action)
    (hcost : Guard.ACTION_COST.lookup action = some .reversible) : LetThrough ix :=
  ⟨action, h, Guard.assertReversible_nil.2 hcost⟩

section Day

variable {rt : Runtime} {w w' : World} {e : Event} {t : ℤ} {k : Pubkey}

theorem Bounded.day (hb : Bounded w.config) : 86400 ≤ w.config.adminTimelockSeconds.toNat := by
  have hlong := UInt32.le_iff_toNat_le.1 hb.adminTimelockSeconds.1
  have hsize : (86400 : UInt32).toNat = 86400 := rfl
  omega

/-- `k` is a guardian that is not cooling down and whose removal is not due before `t`. -/
def Retained (t : ℤ) (k : Pubkey) (w : World) : Prop :=
  ∃ g, w.guardians.lookup k = some g ∧ g.cooldownUntil = 0 ∧
    (g.pendingRemovalAt = 0 ∨ t ≤ g.pendingRemovalAt)

/-- The clock of a call lies in the day before `t`. -/
def InDay (t : ℤ) (e : Event) : Prop := ∀ c, e = .call c → t ≤ c.now + 86400 ∧ c.now < t

theorem Retained.step (hb : Bounded w.config) (hw : Retained t k w) (h : Step rt w e w')
    (ht : InDay t e) : Retained t k w' := by
  obtain ⟨g, hl, hactive, hdue⟩ := hw
  rcases guardian_cases h k with ⟨c, g', rfl, hl', hr⟩ | ⟨-, hk⟩
  · obtain ⟨hday, hlt⟩ := ht c rfl
    refine ⟨g', hl', ?_⟩
    cases hr with
    | add _ _ _ unscheduled => exact ⟨rfl, .inl unscheduled⟩
    | remove _ _ _ active =>
      have hlong := hb.day
      refine ⟨active, .inr ?_⟩
      dsimp only
      omega
    | finalize ix =>
      have he : Effect rt c.now c.signer w _ w' := effect_of_call h ix
      cases he with
      | finalizeGuardianRemoval found _ _ scheduled due =>
        obtain rfl := Option.some.inj (hl.symm.trans found)
        have := hdue.resolve_left scheduled
        omega
    | cancel _ found =>
      obtain rfl := Option.some.inj (hl.symm.trans found)
      exact ⟨hactive, .inl rfl⟩
  · exact ⟨g, hk.trans hl, hactive, hdue⟩

/-- `k` is not the admin and does not become it before `t`. -/
def NoHeir (t : ℤ) (k : Pubkey) (w : World) : Prop :=
  w.config.admin ≠ k ∧ (w.config.pendingAdmin = some k → t ≤ w.config.pendingAdminEta)

theorem NoHeir.step (hb : Bounded w.config) (hw : NoHeir t k w) (h : Step rt w e w')
    (ht : InDay t e) : NoHeir t k w' := by
  rcases step_cases h with ⟨⟨now, hnow, signer, ix⟩, rfl, -, he⟩ | ⟨rfl, he⟩
  · obtain ⟨hday, hlt⟩ : t ≤ now + 86400 ∧ now < t := ht _ rfl
    obtain ⟨hadmin, hheir⟩ := hw
    cases he with
    | proposeAdminTransfer _ _ _ _ delay =>
      have hlong := hb.day
      refine ⟨hadmin, fun _ => ?_⟩
      dsimp only at delay ⊢
      omega
    | acceptAdminTransfer pending _ due =>
      refine ⟨?_, fun hp => absurd hp (by simp)⟩
      rintro rfl
      have := hheir pending
      dsimp only at due
      omega
    | cancelAdminTransfer => exact ⟨hadmin, fun hp => absurd hp (by simp)⟩
    | @execute k' nonce _ _ _ _ _ _ _ _ applied =>
      have hsame := @SameRoles.applied _ _ _ _ _ k' nonce applied
      unfold NoHeir
      rw [hsame.admin, hsame.pendingAdmin, hsame.pendingAdminEta]
      exact ⟨hadmin, hheir⟩
    | _ => exact ⟨hadmin, hheir⟩
  · unfold NoHeir
    rw [he.config]
    exact hw

theorem kept_of_day {P : World → Prop} {es : List Entry} {t₀ : ℤ}
    (hstep : ∀ {w e w'}, Bounded w.config → P w → Step rt w e w' → InDay (t₀ + 86400) e → P w')
    (hb : Bounded w.config) (hw : P w) (run : Run rt w es w')
    (hday : During t₀ (t₀ + 86400) es) : P w' := by
  refine (run.kept (B := fun w => Bounded w.config ∧ P w)
    (q := fun r => ¬ InDay (t₀ + 86400) r.event) ⟨hb, hw⟩ ?_ ?_).2
  · intro w e w' ⟨hb, hw⟩ hs hq
    exact ⟨hb.step hs, hstep hb hw hs (not_not.1 hq)⟩
  · intro r hr hq
    refine hq fun c hc => ?_
    have := hday r hr c hc
    omega

/-- The instruction leaves no change of kind `k` queued that could still be executed. -/
inductive Empties (w : World) (k : TimelockAction) : Instruction → Prop
  | cancel {nonce suppliesGuardian rent} (armed : w.config.pendingNonce k = some nonce) :
      Empties w k (.cancelTimelockedAction nonce suppliesGuardian rent)
  | close {ix} (closes : instantClose ix = some k) : Empties w k ix
  | execute {nonce rent ata} : Empties w k (.execute k nonce rent ata)

theorem Empties.slot {k : TimelockAction} {now : ℤ} {signer : Pubkey} {ix : Instruction}
    (hr : RegistrySound w) (h : Empties w k ix) (he : Effect rt now signer w ix w') :
    w'.config.pendingNonce k = none := by
  cases h with
  | cancel armed =>
    obtain ⟨tl, hl, -, hdisc⟩ := hr.slots k _ armed
    cases he with
    | cancelTimelockedAction found _ _ _ _ _ slots =>
      obtain rfl := Option.some.inj (hl.symm.trans found)
      rw [hdisc, TimelockAction.ofDisc?_disc] at slots
      refine (congrFun slots k).trans ?_
      simp only [armed, if_true, Function.update_self]
  | close closes =>
    cases he with
    | setPublicMintEnabled =>
      obtain rfl := Option.some.inj closes
      simp
    | setRedemptionsEnabled =>
      obtain rfl := Option.some.inj closes
      simp
    | emergencyTightenRedeemLimits _ _ _ _ _ slots =>
      simp only [instantClose, Option.ite_none_right_eq_some, Option.some.injEq] at closes
      obtain ⟨hswitch, rfl⟩ := closes
      refine (congrFun slots _).trans ?_
      rw [if_pos hswitch, Function.update_self]
    | _ => cases closes
  | execute =>
    cases he with
    | execute => exact Function.update_self _ _ _

/-- What a day keeps of what was done at its start. A guardian that is appointed may act all day,
one whose removal is called off stays, and of a kind whose queued change was cancelled, closed or
executed no change takes effect. The guard lets the first two and the cancel through. -/
theorem day_to_undo {c : Call} {es : List Entry} {v : World} (h : Reachable rt w)
    (hs : exec rt c w = .ok w') (run : Run rt w' es v)
    (hday : During c.now (c.now + 86400) es) :
    (∀ k, c.ix = .addGuardian k → LetThrough c.ix ∧ MayAct v k) ∧
    (∀ k, c.ix = .cancelGuardianRemoval k → LetThrough c.ix ∧ Active k v) ∧
    (∀ n suppliesGuardian rent, c.ix = .cancelTimelockedAction n suppliesGuardian rent →
      LetThrough c.ix) ∧
    ∀ k, Empties w k c.ix → ∀ r ∈ es, ∀ n, ¬ Executes k n r := by
  have hstep : Step rt w (.call c) w' := hs
  have hreach := h.snoc hstep
  have hb := bounded_of_reachable hreach
  have he := (effect_of_exec hs).2
  obtain ⟨hown, -⟩ := scheduledActive_of_reachable (hreach.append run)
  refine ⟨?_, ?_, ?_, ?_⟩
  · -- no removal is due before the day is over, nor does `k` become the admin
    intro k hix
    rw [hix] at he ⊢
    refine ⟨letThrough_of rfl (by decide +kernel), ?_⟩
    cases he with
    | addGuardian admin notAdmin notPending _ _ _ unscheduled =>
      obtain ⟨g, hl, hcool, -⟩ := kept_of_day (P := Retained (c.now + 86400) k) Retained.step hb
        ⟨_, Finmap.lookup_insert _, rfl, .inl unscheduled⟩ run hday
      obtain ⟨hadmin, -⟩ := kept_of_day (P := NoHeir (c.now + 86400) k) NoHeir.step hb
        ⟨notAdmin.symm, fun hp => absurd hp notPending⟩ run hday
      have hg := hown k g hl
      refine ⟨g, hl, ?_⟩
      simp [GuardianAccount.mayAct, hg, hcool, hadmin.symm]
  · intro k hix
    rw [hix] at he ⊢
    refine ⟨letThrough_of rfl (by decide +kernel), ?_⟩
    cases he with
    | cancelGuardianRemoval found _ scheduled =>
      have hactive := (scheduledActive_of_reachable h).2 k _ found scheduled
      obtain ⟨g, hl, hcool, -⟩ := kept_of_day (P := Retained (c.now + 86400) k) Retained.step hb
        ⟨_, Finmap.lookup_insert _, hactive, .inl rfl⟩ run hday
      exact ⟨g, hl, hcool⟩
  · intro n suppliesGuardian rent hix
    rw [hix]
    exact letThrough_of rfl (by decide +kernel)
  · intro k hempties
    have hslot := hempties.slot (registrySound_of_reachable h) he
    refine not_executes_of_run hb (fun n tl hn => ?_) run hday
    rw [hslot] at hn
    cases hn

/-- A second guardian, and at once the notice to remove it. -/
def appointCall : Call := Reference.callAt 3000 Reference.admin (.addGuardian (Reference.key 10))

def dismissCall : Call :=
  Reference.callAt 3001 Reference.admin (.removeGuardian (Reference.key 10))

abbrev appointed : World := Reference.next Reference.runtime Reference.start appointCall

theorem day_to_undo_dismissCall :
    MayAct (Reference.final Reference.runtime appointed [dismissCall]) (Reference.key 10) := by
  have run : Run Reference.runtime appointed (Reference.entries Reference.runtime appointed
      [dismissCall]) _ := Reference.run_of_succeeds (by decide +kernel)
  have hday : During 3000 (3000 + 86400) (Reference.entries Reference.runtime appointed
      [dismissCall]) :=
    Reference.forall_entries (p := fun c => 3000 ≤ c.now ∧ c.now < 3000 + 86400)
      (by decide +kernel)
  exact ((day_to_undo (@Reference.reachable_final [] rfl)
    (Reference.exec_next (by decide +kernel)) run hday).1 _ rfl).2

end Day

section Undone

variable {rt : Runtime} {w w' v : World} {c : Call}

/-- From `now` on the program does in `v` what it does in `w`: but for the next nonce the config is
the same, and so are the queue, the guardians, the balances and whom it exempts or lets pass. -/
structure Restores (now : ℤ) (w v : World) : Prop where
  config : ∃ nextTimelockNonce, v.config = { w.config with nextTimelockNonce }
  timelocks : v.timelocks = w.timelocks
  guardians : v.guardians = w.guardians
  exempt : ∀ u bps side t, now ≤ t → effectivePremiumBps bps (v.feeExempts.lookup u) u side t =
    effectivePremiumBps bps (w.feeExempts.lookup u) u side t
  attested : ∀ u flags side,
    enforceKyc flags side (v.kycs.lookup u) u = enforceKyc flags side (w.kycs.lookup u) u
  silvMint : v.silvMint = w.silvMint
  usdc : v.usdc = w.usdc ∧ v.usdcDecimals = w.usdcDecimals
  silv : v.silv = w.silv

theorem Restores.refl (now : ℤ) (w : World) : Restores now w w :=
  ⟨⟨_, rfl⟩, rfl, rfl, fun _ _ _ _ _ => rfl, fun _ _ _ => rfl, rfl, ⟨rfl, rfl⟩, rfl⟩

/-- A call of `signer` in the same second. -/
def Call.also (c : Call) (signer : Pubkey) (ix : Instruction) : Call :=
  ⟨c.now, c.now_i64, signer, ix⟩

/-- At most two calls in the second of `c` lead from `w'` to a state that restores `w`. -/
def UndoneBy (rt : Runtime) (c : Call) (w w' : World) : Prop :=
  ∃ cs : List Call, cs.length ≤ 2 ∧ (∀ d ∈ cs, d.now = c.now) ∧
    ∃ v, cs.foldlM (fun w d => exec rt d w) w' = .ok v ∧ Restores c.now w v

theorem also_ok {signer : Pubkey} {ix : Instruction} (hs : rt.canSign signer = true)
    (h : dispatch rt c.now signer ix w = .ok w') : exec rt (c.also signer ix) w = .ok w' := by
  simp only [exec, bind_ok, constrain_ok, exists_unit]
  exact ⟨hs, h⟩

theorem UndoneBy.none (h : Restores c.now w w') : UndoneBy rt c w w' :=
  ⟨[], by simp, by simp, w', rfl, h⟩

theorem UndoneBy.one {signer : Pubkey} {i : Instruction} (hs : rt.canSign signer = true)
    (h : dispatch rt c.now signer i w' = .ok v) (hv : Restores c.now w v) :
    UndoneBy rt c w w' := by
  refine ⟨[c.also signer i], by simp, ?_, v, ?_, hv⟩
  · simp [Call.also]
  · simp only [List.foldlM_cons, List.foldlM_nil, also_ok hs h]
    rfl

theorem UndoneBy.two {s₁ s₂ : Pubkey} {ix₁ ix₂ : Instruction} {v₁ : World}
    (hs₁ : rt.canSign s₁ = true) (h₁ : dispatch rt c.now s₁ ix₁ w' = .ok v₁)
    (hs₂ : rt.canSign s₂ = true) (h₂ : dispatch rt c.now s₂ ix₂ v₁ = .ok v)
    (hv : Restores c.now w v) : UndoneBy rt c w w' := by
  refine ⟨[c.also s₁ ix₁, c.also s₂ ix₂], by simp, ?_, v, ?_, hv⟩
  · simp [Call.also]
  · simp only [List.foldlM_cons, List.foldlM_nil, also_ok hs₁ h₁]
    change (exec rt (c.also s₂ ix₂) v₁ >>= fun s => pure s) = .ok v
    rw [also_ok hs₂ h₂]
    rfl

end Undone

end DominionSilver
