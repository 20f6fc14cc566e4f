import DominionSilver.Sanity.Reference
import DominionSilver.Sanity.Roles

/-! The removal of a guardian. It takes a notice by the admin of the time, which
nobody has cancelled and which is finalized in its window; until then the
guardian keeps its powers, of which one veto an appointment. A removed guardian
comes back no sooner than its cooldown. -/

namespace DominionSilver

open Checked Bytes Tokens

section Clock

def clockOf (r : Entry) : Option ℤ :=
  match r.event with
  | .call c => some c.now
  | .external => none

/-- The clock that the deployment and the instructions of a run read never goes back. -/
def ClockMonotone (now₀ : ℤ) (es : List Entry) : Prop :=
  (now₀ :: es.filterMap clockOf).Pairwise (· ≤ ·)

theorem ClockMonotone.split {now₀ : ℤ} {as bs : List Entry} {r : Entry} {c : Call}
    (h : ClockMonotone now₀ (as ++ r :: bs)) (hc : r.event = .call c) :
    now₀ ≤ c.now ∧ (∀ x ∈ as, ∀ d, x.event = .call d → d.now ≤ c.now) ∧
      ∀ x ∈ bs, ∀ d, x.event = .call d → c.now ≤ d.now := by
  have hr : clockOf r = some c.now := by simp only [clockOf, hc]
  unfold ClockMonotone at h
  rw [List.filterMap_append, List.filterMap_cons_some hr, List.pairwise_cons,
    List.pairwise_append, List.pairwise_cons] at h
  obtain ⟨hfirst, -, ⟨hafter, -⟩, hbefore⟩ := h
  have hmem : ∀ {xs : List Entry} {x : Entry} {d : Call}, x ∈ xs → x.event = .call d →
      d.now ∈ xs.filterMap clockOf := by
    intro xs x d hx hd
    exact List.mem_filterMap.2 ⟨x, hx, by simp only [clockOf, hd]⟩
  refine ⟨hfirst _ (by simp), ?_, ?_⟩
  · intro x hx d hd
    exact hbefore _ (hmem hx hd) _ List.mem_cons_self
  · intro x hx d hd
    exact hafter _ (hmem hx hd)

end Clock

section Steps

variable (k : Pubkey)

/-- The admin of the time gives `k` notice for the time `eta`. -/
def Schedules (eta : ℤ) (r : Entry) : Prop :=
  ∃ c, r.event = .call c ∧ c.ix = .removeGuardian k ∧ c.signer = r.pre.config.admin ∧
    eta = c.now + r.pre.config.adminTimelockSeconds.toNat

def Finalizes (r : Entry) : Prop := ∃ c, r.event = .call c ∧ c.ix = .finalizeGuardianRemoval k

/-- The step writes or ends a notice to `k`. -/
def MovesNotice (r : Entry) : Prop :=
  ∃ c, r.event = .call c ∧ (c.ix = .removeGuardian k ∨ c.ix = .cancelGuardianRemoval k ∨
    c.ix = .finalizeGuardianRemoval k)

def Appoints (r : Entry) : Prop := ∃ c, r.event = .call c ∧ c.ix = .addGuardian k

/-- `k`, which is not the admin, cancels a notice to itself that has not expired. -/
def Vetoes (r : Entry) : Prop :=
  ∃ c g, r.event = .call c ∧ c.ix = .cancelGuardianRemoval k ∧ c.signer = k ∧
    k ≠ r.pre.config.admin ∧ r.pre.guardians.lookup k = some g ∧
    removalScheduleExpired g.pendingRemovalAt c.now = false

/-- `k` has an account that is not in cooldown. -/
def Active (w : World) : Prop := ∃ g, w.guardians.lookup k = some g ∧ g.cooldownUntil = 0

/-- `k` may act unless it is the admin. -/
def Empowered (w : World) : Prop :=
  ∃ g, w.guardians.lookup k = some g ∧
    (k ≠ w.config.admin → g.mayAct k w.config.admin = true)

variable {k} {rt : Runtime} {w w' : World} {e : Event}

/-- A notice stands because the step gives it, or because it stood and the step leaves it. -/
theorem notice_step {eta : ℤ} (heta : eta ≠ 0) (h : Step rt w e w')
    (hn : ∃ g, w'.guardians.lookup k = some g ∧ g.pendingRemovalAt = eta) :
    Schedules k eta ⟨w, e, w'⟩ ∨ ((∃ g, w.guardians.lookup k = some g ∧ g.pendingRemovalAt = eta) ∧
      ¬ MovesNotice k ⟨w, e, w'⟩) := by
  obtain ⟨g, hl, rfl⟩ := hn
  rcases guardian_cases h k with ⟨c, g', rfl, hl', hr⟩ | ⟨hother, hk⟩
  · obtain rfl := Option.some.inj (hl'.symm.trans hl)
    cases hr with
    | add _ _ _ unscheduled => exact absurd unscheduled heta
    | remove ix _ _ _ admin => exact .inl ⟨c, rfl, ix, admin.symm, rfl⟩
    | finalize => exact absurd rfl heta
    | cancel => exact absurd rfl heta
  · refine .inr ⟨⟨g, hk ▸ hl, rfl⟩, ?_⟩
    rintro ⟨c, rfl, hix | hix | hix⟩ <;> exact hother c rfl (by rw [hix]; rfl)

theorem Active.step (hw : Active k w) (h : Step rt w e w') (hf : ¬ Finalizes k ⟨w, e, w'⟩) :
    Active k w' := by
  obtain ⟨g, hl, hc⟩ := hw
  rcases guardian_cases h k with ⟨c, g', rfl, hl', hr⟩ | ⟨-, hk⟩
  · refine ⟨g', hl', ?_⟩
    cases hr with
    | add => rfl
    | remove _ _ _ active => exact active
    | finalize ix => exact absurd ⟨c, rfl, ix⟩ hf
    | cancel _ found =>
      obtain rfl := Option.some.inj (hl.symm.trans found)
      exact hc
  · exact ⟨g, hk.trans hl, hc⟩

theorem Active.empowered (hw : Active k w) (hown : OwnKeys w) : Empowered k w := by
  obtain ⟨g, hl, hc⟩ := hw
  refine ⟨g, hl, ?_⟩
  intro hk
  have hg := hown k g hl
  simp [GuardianAccount.mayAct, hg, hc, hk]

theorem active_of_appoints {r : Entry} (h : Step rt r.pre r.event r.post) (ha : Appoints k r) :
    Active k r.post := by
  obtain ⟨pre, event, post⟩ := r
  obtain ⟨c, rfl, hix⟩ := ha
  have he : Effect rt c.now c.signer pre _ post := effect_of_call h hix
  cases he with
  | addGuardian => exact ⟨_, Finmap.lookup_insert _, rfl⟩

/-- The veto of a guardian is spent. -/
def Spent (k : Pubkey) (w : World) : Prop :=
  ∃ g, w.guardians.lookup k = some g ∧ g.selfCancelUsed = true

theorem Spent.step (hw : Spent k w) (h : Step rt w e w') (ha : ¬ Appoints k ⟨w, e, w'⟩) :
    Spent k w' := by
  obtain ⟨g, hl, hu⟩ := hw
  rcases guardian_cases h k with ⟨c, g', rfl, hl', hr⟩ | ⟨-, hk⟩
  · refine ⟨g', hl', ?_⟩
    cases hr with
    | add ix => exact absurd ⟨c, rfl, ix⟩ ha
    | remove _ found =>
      obtain rfl := Option.some.inj (hl.symm.trans found)
      exact hu
    | finalize _ found =>
      obtain rfl := Option.some.inj (hl.symm.trans found)
      exact hu
    | cancel _ found _ used =>
      obtain rfl := Option.some.inj (hl.symm.trans found)
      exact used.elim (·.trans hu) id
  · exact ⟨g, hk.trans hl, hu⟩

theorem spends_of_vetoes {r : Entry} (h : Step rt r.pre r.event r.post) (hv : Vetoes k r) :
    ¬ Spent k r.pre ∧ Spent k r.post := by
  obtain ⟨pre, event, post⟩ := r
  obtain ⟨c, g, rfl, hix, hs, hk, hl, hlive⟩ := hv
  have he : Effect rt c.now c.signer pre _ post := effect_of_call h hix
  cases he with
  | cancelGuardianRemoval found _ _ auth =>
    obtain rfl := Option.some.inj (hl.symm.trans found)
    rcases auth with ⟨-, hexp | hadmin⟩ | ⟨hused, -, hunused⟩
    · rw [hlive] at hexp
      cases hexp
    · exact absurd (hs.symm.trans hadmin) hk
    · refine ⟨?_, _, Finmap.lookup_insert _, hused⟩
      rintro ⟨g', hl', hu⟩
      obtain rfl := Option.some.inj (hl'.symm.trans found)
      rw [hunused] at hu
      cases hu

/-- Every account was added by the time `t`. -/
def AddedBy (t : ℤ) (w : World) : Prop := ∀ j g, w.guardians.lookup j = some g → g.addedAt ≤ t

theorem AddedBy.step {t : ℤ} (hw : AddedBy t w) (h : Step rt w e w')
    (ht : ¬ ∃ c, e = .call c ∧ t < c.now) : AddedBy t w' := by
  intro j a ha
  rcases guardian_cases h j with ⟨c, g, rfl, hl, hr⟩ | ⟨-, hk⟩
  · obtain rfl := Option.some.inj (hl.symm.trans ha)
    cases hr with
    | add => exact not_lt.1 fun hlt => ht ⟨c, rfl, hlt⟩
    | @remove g _ found => exact hw j g found
    | @finalize g _ found => exact hw j g found
    | @cancel g _ _ found => exact hw j g found
  · exact hw j a (hk ▸ ha)

/-- Removed at `t`, `k` is still in a cooldown that began no earlier, or `T` is past it. -/
def CoolingUntil (k : Pubkey) (t T : ℤ) (w : World) : Prop :=
  t + GUARDIAN_REMOVE_COOLDOWN_SECONDS ≤ T ∨ ∃ g t', w.guardians.lookup k = some g ∧
    g.cooldownUntil = t' + GUARDIAN_REMOVE_COOLDOWN_SECONDS ∧ t ≤ t' ∧ g.addedAt ≤ t

theorem CoolingUntil.add {t now : ℤ} {signer : Pubkey} (hw : CoolingUntil k t now w)
    (h : Effect rt now signer w (.addGuardian k) w') :
    t + GUARDIAN_REMOVE_COOLDOWN_SECONDS ≤ now := by
  rcases hw with hle | ⟨g, t', hl, hcool, ht, hadd⟩
  · exact hle
  cases h with
  | addGuardian _ _ _ cooled idle =>
    simp only [guardianAt, hl, Option.getD_some] at cooled idle
    simp only [GUARDIAN_REMOVE_COOLDOWN_SECONDS] at hcool ⊢
    rcases cooled with h0 | hle
    · exact absurd ⟨by omega, h0⟩ idle
    · omega

theorem CoolingUntil.step {t T : ℤ} (hw : CoolingUntil k t T w) (h : Step rt w e w')
    (ht : ¬ ∃ c, e = .call c ∧ ¬ (t ≤ c.now ∧ c.now ≤ T)) : CoolingUntil k t T w' := by
  rcases hw with hle | hcool
  · exact .inl hle
  rcases guardian_cases h k with ⟨c, g', rfl, hl', hr⟩ | ⟨-, hk⟩
  · have hin : t ≤ c.now ∧ c.now ≤ T := by
      by_contra hout
      exact ht ⟨c, rfl, hout⟩
    have hw : CoolingUntil k t c.now w := .inr hcool
    obtain ⟨g, t', hl, hc, htt, hadd⟩ := hcool
    cases hr with
    | add ix => exact .inl ((hw.add (effect_of_call h ix)).trans hin.2)
    | remove _ found =>
      obtain rfl := Option.some.inj (hl.symm.trans found)
      exact .inr ⟨_, t', hl', hc, htt, hadd⟩
    | finalize _ found =>
      obtain rfl := Option.some.inj (hl.symm.trans found)
      exact .inr ⟨_, c.now, hl', rfl, hin.1, hadd⟩
    | cancel _ found =>
      obtain rfl := Option.some.inj (hl.symm.trans found)
      exact .inr ⟨_, t', hl', hc, htt, hadd⟩
  · obtain ⟨g, t', hl, hc, htt, hadd⟩ := hcool
    exact .inr ⟨g, t', hk.trans hl, hc, htt, hadd⟩

end Steps

/-- What a run from `w₀` to `w` makes of the appointments and removals of `k`. -/
structure RemovalLaw (k : Pubkey) (w₀ : World) (es : List Entry) (w : World) : Prop where
  /-- A finalize carries out the last notice, by the admin of its time, within its window. -/
  finalized : ∀ before r after, es = before ++ r :: after → ∀ c, r.event = .call c →
    c.ix = .finalizeGuardianRemoval k → ∃ eta,
      Trace.Since (Schedules k eta) (MovesNotice k) before ∧ eta ≤ c.now ∧
        c.now ≤ eta + GUARDIAN_REMOVAL_EXEC_WINDOW_SECONDS
  ends : ∀ r ∈ es, Active k r.pre → ¬ Active k r.post → Finalizes k r
  /-- From the deployment or an add on, until a finalize, the guardian may act. -/
  deployed : Active k w₀ → (∀ x ∈ es, ¬ Finalizes k x) →
    Empowered k w ∧ ∀ x ∈ es, Empowered k x.pre
  appointed : ∀ before r after, es = before ++ r :: after → Appoints k r →
    (∀ x ∈ after, ¬ Finalizes k x) → Empowered k w ∧ ∀ x ∈ after, Empowered k x.pre
  vetoes : ∀ as r bs q cs, es = as ++ r :: (bs ++ q :: cs) → Vetoes k r → Vetoes k q →
    ∃ x ∈ bs, Appoints k x
  cooldown : ∀ as r bs q cs, es = as ++ r :: (bs ++ q :: cs) → ∀ c d, r.event = .call c →
    c.ix = .finalizeGuardianRemoval k → q.event = .call d → d.ix = .addGuardian k →
    c.now + GUARDIAN_REMOVE_COOLDOWN_SECONDS ≤ d.now

section Runs

variable {rt : Runtime} {now₀ : ℤ} {w₀ w : World} {es : List Entry} {k : Pubkey}

theorem empowered_of_run (hw : Active k w₀) (hown : OwnKeys w₀) (run : Run rt w₀ es w)
    (hes : ∀ x ∈ es, ¬ Finalizes k x) : Empowered k w ∧ ∀ x ∈ es, Empowered k x.pre := by
  have hkept : ∀ {as w'}, Run rt w₀ as w' → (∀ x ∈ as, ¬ Finalizes k x) → Empowered k w' :=
    fun hrun has => (hrun.kept (B := Active k) hw Active.step has).empowered
      (hrun.invariant hown OwnKeys.step)
  refine ⟨hkept run hes, ?_⟩
  intro x hx
  obtain ⟨as, bs, rfl⟩ := List.append_of_mem hx
  exact hkept run.split.1 fun y hy => hes y (List.mem_append_left _ hy)

theorem finalized_in_window (h₀ : Initialized rt now₀ w₀) {c : Call} {w' : World}
    (run : Run rt w₀ es w) (h : exec rt c w = .ok w') (hix : c.ix = .finalizeGuardianRemoval k) :
    ∃ eta, Trace.Since (Schedules k eta) (MovesNotice k) es ∧ eta ≤ c.now ∧
      c.now ≤ eta + GUARDIAN_REMOVAL_EXEC_WINDOW_SECONDS := by
  have he := effect_of_call h hix
  cases he with
  | @finalizeGuardianRemoval _ g _ _ _ found _ _ scheduled due inTime =>
    have hsince : Trace.Since (Schedules k g.pendingRemovalAt) (MovesNotice k) es := by
      refine run.since ?_ (notice_step scheduled) ⟨g, found, rfl⟩
      rintro ⟨g', hl, hp⟩
      rw [account_initial h₀ hl] at hp
      exact scheduled hp.symm
    refine ⟨_, hsince, due, ?_⟩
    -- the notice is a clock reading and a timelock, so its window saturates only upwards
    obtain ⟨as, r, bs, -, ⟨p, -, -, -, heta⟩, -⟩ := hsince
    have hlow := p.now_i64.1
    have hexp : c.now ≤ saturatingI64
        (g.pendingRemovalAt + GUARDIAN_REMOVAL_EXEC_WINDOW_SECONDS) := by
      by_contra hlt
      simp [removalScheduleExpired, scheduled, not_le.1 hlt] at inTime
    unfold saturatingI64 at hexp
    simp only [GUARDIAN_REMOVAL_EXEC_WINDOW_SECONDS] at hexp ⊢
    omega

theorem cooling_of_finalize {c : Call} {w' : World} (hadd : AddedBy c.now w)
    (h : exec rt c w = .ok w') (hix : c.ix = .finalizeGuardianRemoval k) (T : ℤ) :
    CoolingUntil k c.now T w' := by
  have he := effect_of_call h hix
  cases he with
  | finalizeGuardianRemoval found _ _ _ _ _ _ cooldown =>
    have hle := hadd _ _ found
    exact .inr ⟨_, c.now, Finmap.lookup_insert _, cooldown, le_rfl, hle⟩

/-- Over every run whose clock does not go back, every guardian is removed by the law. -/
theorem guardian_removal_law (h₀ : Initialized rt now₀ w₀) (run : Run rt w₀ es w)
    (hclock : ClockMonotone now₀ es) (k : Pubkey) : RemovalLaw k w₀ es w := by
  constructor
  · rintro before r after rfl c hc hix
    obtain ⟨hrun, hstep, -⟩ := run.split
    rw [hc] at hstep
    exact finalized_in_window h₀ hrun hstep hix
  · intro r hr hactive hpost
    obtain ⟨_, _, hstep⟩ := run.step_of_mem hr
    by_contra hf
    exact hpost (hactive.step hstep hf)
  · intro hactive hes
    exact empowered_of_run hactive (ownKeys_initial h₀) run hes
  · rintro before r after rfl ha hafter
    obtain ⟨hrun, hstep, hrest⟩ := run.split
    have hown : OwnKeys r.pre := hrun.invariant (ownKeys_initial h₀) OwnKeys.step
    exact empowered_of_run (active_of_appoints hstep ha) (hown.step hstep) hrest hafter
  · rintro as r bs q cs rfl hr hq
    obtain ⟨-, hstep, hrest⟩ := run.split
    obtain ⟨hbs, hstepq, -⟩ := hrest.split
    by_contra hno
    have hspent := hbs.kept (B := Spent k) (spends_of_vetoes hstep hr).2 Spent.step
      fun x hx ha => hno ⟨x, hx, ha⟩
    exact (spends_of_vetoes hstepq hq).1 hspent
  · rintro as r bs q cs rfl c d hc hcix hd hdix
    obtain ⟨hfirst, hbefore, hafter⟩ := hclock.split hc
    obtain ⟨hrun, hstep, hrest⟩ := run.split
    obtain ⟨hbs, hstepq, -⟩ := hrest.split
    rw [← List.cons_append, ← List.append_assoc] at hclock
    obtain ⟨-, hupto, -⟩ := hclock.split hd
    rw [hc] at hstep
    have hadd : AddedBy c.now r.pre := by
      refine hrun.kept (q := fun x => ∃ d, x.event = .call d ∧ c.now < d.now) ?_ AddedBy.step ?_
      · intro j g hl
        rw [account_initial h₀ hl]
        exact hfirst
      · rintro x hx ⟨p, hp, hlt⟩
        exact (hbefore x hx p hp).not_gt hlt
    have hcool : CoolingUntil k c.now d.now q.pre := by
      refine hbs.kept (q := fun x => ∃ p, x.event = .call p ∧ ¬ (c.now ≤ p.now ∧ p.now ≤ d.now))
        (cooling_of_finalize hadd hstep hcix _) CoolingUntil.step ?_
      rintro x hx ⟨p, hp, hout⟩
      exact hout ⟨hafter x (List.mem_append_left _ hx) p hp,
        hupto x (List.mem_append_right _ (List.mem_cons_of_mem _ hx)) p hp⟩
    rw [hd] at hstepq
    have he := (effect_of_exec hstepq).2
    rw [hdix] at he
    exact hcool.add he

end Runs

/-- A guardian vetoes one notice, is removed by the next one and comes back after its cooldown. -/
def removalCalls : List Call :=
  [Reference.callAt 3000 Reference.admin (.addGuardian (Reference.key 10)),
    Reference.callAt 4000 Reference.admin (.removeGuardian Reference.guardian),
    Reference.callAt 5000 Reference.guardian (.cancelGuardianRemoval Reference.guardian),
    Reference.callAt 6000 Reference.admin (.removeGuardian Reference.guardian),
    Reference.callAt 92400 Reference.user (.finalizeGuardianRemoval Reference.guardian),
    Reference.callAt 96000 Reference.admin (.addGuardian Reference.guardian)]

theorem guardian_removal_law_removalCalls :
    RemovalLaw Reference.guardian Reference.start
      (Reference.entries Reference.runtime Reference.start removalCalls)
      (Reference.final Reference.runtime Reference.start removalCalls) :=
  guardian_removal_law Reference.initialized_start
    (@Reference.run_of_succeeds _ _ removalCalls (by decide +kernel))
    (by unfold ClockMonotone; decide +kernel) Reference.guardian

end DominionSilver
