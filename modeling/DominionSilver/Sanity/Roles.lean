import DominionSilver.Sanity.Inversion

/-! Who may do what: the admin and its transfer, the guardians, the attestor and
its roster. No timelocked change and nothing outside the program touches them,
and a guardian's account is written by the four instructions that name it. -/

namespace DominionSilver

open Checked Bytes Tokens

/-- The same admin with the same transfer pending, the same guardians, the same attestor and the
same roster. -/
structure SameRoles (w w' : World) : Prop where
  admin : w'.config.admin = w.config.admin
  pendingAdmin : w'.config.pendingAdmin = w.config.pendingAdmin
  pendingAdminEta : w'.config.pendingAdminEta = w.config.pendingAdminEta
  pendingAdminExpiresAt : w'.config.pendingAdminExpiresAt = w.config.pendingAdminExpiresAt
  guardianCount : w'.config.guardianCount = w.config.guardianCount
  pendingRemovalCount : w'.config.pendingRemovalCount = w.config.pendingRemovalCount
  maxGuardianCount : w'.config.maxGuardianCount = w.config.maxGuardianCount
  guardians : w'.guardians = w.guardians
  kycOperator : w'.config.kycOperator = w.config.kycOperator
  kycEnforced : w'.config.kycEnforced = w.config.kycEnforced
  kycScopeFlags : w'.config.kycScopeFlags = w.config.kycScopeFlags
  kycAttestationCount : w'.config.kycAttestationCount = w.config.kycAttestationCount
  kycs : w'.kycs = w.kycs

theorem SameRoles.applied {rt : Runtime} {ata : Pubkey} {w w₁ : World} {change : Change}
    {k : TimelockAction} {n : UInt64} (h : Applied rt ata w change w₁) :
    SameRoles w (closeTimelock k n w₁) := by
  cases h <;> exact ⟨rfl, rfl, rfl, rfl, rfl, rfl, rfl, rfl, rfl, rfl, rfl, rfl, rfl⟩

theorem SameRoles.external {rt : Runtime} {w w' : World} (h : External rt w w') :
    SameRoles w w' := by
  constructor <;> first | exact h.guardians | exact h.kycs | rw [h.config]

/-- The guardian whose account an instruction writes. -/
def guardianOf : Instruction → Option Pubkey
  | .addGuardian k | .removeGuardian k | .finalizeGuardianRemoval k
  | .cancelGuardianRemoval k => some k
  | _ => none

section Guardians

variable {rt : Runtime} {w w' : World} {e : Event} {k : Pubkey}

theorem guardianOf_eq_some {ix : Instruction} (h : guardianOf ix = some k) :
    ix = .addGuardian k ∨ ix = .removeGuardian k ∨ ix = .finalizeGuardianRemoval k ∨
      ix = .cancelGuardianRemoval k := by
  cases ix <;> cases h
  · exact .inl rfl
  · exact .inr (.inl rfl)
  · exact .inr (.inr (.inl rfl))
  · exact .inr (.inr (.inr rfl))

theorem lookup_of_effect {now : ℤ} {signer : Pubkey} {ix : Instruction}
    (h : Effect rt now signer w ix w') (hk : guardianOf ix ≠ some k) :
    w'.guardians.lookup k = w.guardians.lookup k := by
  have hne : ∀ {j : Pubkey}, (some j : Option Pubkey) ≠ some k → k ≠ j := fun hj e => hj (by rw [e])
  cases h with
  | addGuardian => exact Finmap.lookup_insert_of_ne _ (hne hk)
  | removeGuardian => exact Finmap.lookup_insert_of_ne _ (hne hk)
  | finalizeGuardianRemoval => exact Finmap.lookup_insert_of_ne _ (hne hk)
  | cancelGuardianRemoval => exact Finmap.lookup_insert_of_ne _ (hne hk)
  | execute _ _ _ applied => exact congrArg (·.lookup k) (SameRoles.applied applied).guardians
  | _ => rfl

/-- What a call that names guardian `k` makes of its account. -/
inductive Rewrites (w : World) (c : Call) (k : Pubkey) : GuardianAccount → Prop
  | add (ix : c.ix = .addGuardian k)
      (cooled : (guardianAt w k).cooldownUntil = 0 ∨ (guardianAt w k).cooldownUntil ≤ c.now)
      (idle : ¬ ((guardianAt w k).addedAt ≠ 0 ∧ (guardianAt w k).cooldownUntil = 0))
      (unscheduled : (guardianAt w k).pendingRemovalAt = 0) :
      Rewrites w c k { guardianAt w k with
        guardian := k, addedAt := c.now, cooldownUntil := 0, selfCancelUsed := false }
  | remove {g} (ix : c.ix = .removeGuardian k) (found : w.guardians.lookup k = some g)
      (own : g.guardian = k) (active : g.cooldownUntil = 0) (admin : w.config.admin = c.signer) :
      Rewrites w c k
        { g with pendingRemovalAt := c.now + w.config.adminTimelockSeconds.toNat }
  | finalize {g} (ix : c.ix = .finalizeGuardianRemoval k) (found : w.guardians.lookup k = some g)
      (own : g.guardian = k) (active : g.cooldownUntil = 0) :
      Rewrites w c k { g with
        cooldownUntil := c.now + GUARDIAN_REMOVE_COOLDOWN_SECONDS, pendingRemovalAt := 0 }
  | cancel {g selfCancelUsed} (ix : c.ix = .cancelGuardianRemoval k)
      (found : w.guardians.lookup k = some g) (own : g.guardian = k)
      (used : selfCancelUsed = g.selfCancelUsed ∨ selfCancelUsed = true) :
      Rewrites w c k { g with selfCancelUsed, pendingRemovalAt := 0 }

/-- A step rewrites the account of guardian `k` by an instruction that names it, or leaves it. -/
theorem guardian_cases (h : Step rt w e w') (k : Pubkey) :
    (∃ c g, e = .call c ∧ w'.guardians.lookup k = some g ∧ Rewrites w c k g) ∨
      ((∀ c, e = .call c → guardianOf c.ix ≠ some k) ∧
        w'.guardians.lookup k = w.guardians.lookup k) := by
  rcases step_cases h with ⟨⟨now, hnow, signer, ix⟩, rfl, -, he⟩ | ⟨rfl, he⟩
  · by_cases hk : guardianOf ix = some k
    · refine .inl ⟨⟨now, hnow, signer, ix⟩, ?_⟩
      rcases guardianOf_eq_some hk with rfl | rfl | rfl | rfl
      · cases he with
        | addGuardian _ _ _ cooled idle _ unscheduled =>
          exact ⟨_, rfl, Finmap.lookup_insert _, .add rfl cooled idle unscheduled⟩
      · cases he with
        | removeGuardian admin found own active delay =>
          subst delay
          exact ⟨_, rfl, Finmap.lookup_insert _, .remove rfl found own active admin⟩
      · cases he with
        | finalizeGuardianRemoval found own active _ _ _ _ cooldown =>
          subst cooldown
          exact ⟨_, rfl, Finmap.lookup_insert _, .finalize rfl found own active⟩
      · cases he with
        | cancelGuardianRemoval found own _ auth =>
          exact ⟨_, rfl, Finmap.lookup_insert _, .cancel rfl found own (auth.imp (·.1) (·.1))⟩
    · refine .inr ⟨?_, lookup_of_effect he hk⟩
      intro c hc
      exact Event.call.inj hc ▸ hk
  · exact .inr ⟨fun _ hc => (nomatch hc), by rw [he.guardians]⟩

/-- Every account is under the key it holds. -/
def OwnKeys (w : World) : Prop := ∀ k g, w.guardians.lookup k = some g → g.guardian = k

theorem account_initial {now : ℤ} {g : GuardianAccount} (h : Initialized rt now w)
    (hl : w.guardians.lookup k = some g) : g = ⟨k, now, 0, 0, false⟩ := by
  obtain ⟨args, _, t, m, d⟩ := deployed_of_initialized h
  obtain ⟨usdc, -, rfl⟩ := d.state
  by_cases hk : k = args.guardian
  · rw [hk, Finmap.lookup_insert] at hl
    rw [← Option.some.inj hl, hk]
  · rw [Finmap.lookup_insert_of_ne _ hk, Finmap.lookup_empty] at hl
    cases hl

theorem ownKeys_initial {now : ℤ} (h : Initialized rt now w) : OwnKeys w := by
  intro k g hl
  rw [account_initial h hl]

theorem OwnKeys.step (hw : OwnKeys w) (h : Step rt w e w') : OwnKeys w' := by
  intro k a ha
  rcases guardian_cases h k with ⟨c, g, rfl, hl, hr⟩ | ⟨-, hl⟩
  · obtain rfl := Option.some.inj (hl.symm.trans ha)
    cases hr with
    | add => rfl
    | remove _ _ own => exact own
    | finalize _ _ own => exact own
    | cancel _ _ own => exact own
  · exact hw k a (hl ▸ ha)

end Guardians

end DominionSilver
