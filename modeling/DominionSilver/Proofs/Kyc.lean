import DominionSilver.Sanity.Reference
import DominionSilver.Sanity.Roles

/-! The attestation roster. Its counter follows the accounts through attesting,
attesting again and revoking, and an armed gate always has somebody behind it.
Only the admin moves the gate, so the attestor must never be the admin; what
keeps them apart is checked when the attestor is set, and not when the admin
changes. -/

namespace DominionSilver

open Checked Bytes Tokens

/-- The counter counts, every account is of the current version, and the gate is as its flags say
and never armed before an empty roster or without an attestor. -/
structure RosterSound (w : World) : Prop where
  counted : w.config.kycAttestationCount.toNat = w.kycs.keys.card
  version : ∀ k a, w.kycs.lookup k = some a → a.version = KYC_ACCOUNT_VERSION
  armed : w.config.kycScopeFlags ≠ 0 →
    0 < w.config.kycAttestationCount ∧ w.config.kycOperator ≠ Bytes32.zero
  enforced : w.config.kycEnforced = decide (w.config.kycScopeFlags ≠ 0)
  scope : sideFlagsValidAllowEmpty w.config.kycScopeFlags = true

theorem rosterSound_initial {rt : Runtime} {now : ℤ} {w : World} (h : Initialized rt now w) :
    RosterSound w := by
  obtain ⟨args, g, t, m, d⟩ := deployed_of_initialized h
  obtain ⟨usdc, -, rfl⟩ := d.state
  exact ⟨rfl, fun k a h => by simp at h, fun h => absurd rfl h, rfl,
    (by decide : sideFlagsValidAllowEmpty 0 = true)⟩

theorem RosterSound.congr {w w' : World} (hw : RosterSound w) (h : SameRoles w w') :
    RosterSound w' := by
  constructor
  · rw [h.kycAttestationCount, h.kycs]; exact hw.counted
  · rw [h.kycs]; exact hw.version
  · rw [h.kycScopeFlags, h.kycAttestationCount, h.kycOperator]; exact hw.armed
  · rw [h.kycEnforced, h.kycScopeFlags]; exact hw.enforced
  · rw [h.kycScopeFlags]; exact hw.scope

section Effects

variable {rt : Runtime} {now : ℤ} {signer : Pubkey} {w w' : World}

/-- What a revocation writes: one fewer, and the same flags unless it empties the roster of an armed
gate, which takes the admin. -/
theorem resolveRevocation_ok {flags : UInt8} {count : UInt32} {signerIsAdmin allowDisarm : Bool}
    {o : RevocationOutcome} (h : resolveRevocation flags count signerIsAdmin allowDisarm = .ok o) :
    o.countAfter.toNat + 1 = count.toNat ∧
      ((o.scopeAfter = flags ∧ (flags ≠ 0 → 0 < o.countAfter)) ∨
        (o.scopeAfter = 0 ∧ signerIsAdmin = true)) := by
  simp only [resolveRevocation, bind_ok, orOverflow_ok, checkedSub_eq_some] at h
  obtain ⟨after, hafter, h⟩ := h
  have hafter : after.toNat + 1 = count.toNat := hafter
  split_ifs at h with hc
  · obtain rfl := Except.ok.inj h
    exact ⟨hafter, .inl ⟨rfl, fun hne => hc.resolve_left hne⟩⟩
  · simp only [bind_ok, require_ok, exists_unit, pure_ok] at h
    obtain ⟨ha, -, rfl⟩ := h
    have hz : after.toNat = 0 := Nat.eq_zero_of_not_pos fun hp =>
      hc (.inr (UInt32.lt_iff_toNat_lt.2 hp))
    exact ⟨by rw [← hafter, hz]; rfl, .inr ⟨rfl, ha⟩⟩

theorem nextAttestationCount_ok {count count' : UInt32} {isNew : Bool}
    (h : nextAttestationCount count isNew = .ok count') :
    count'.toNat = count.toNat + if isNew then 1 else 0 := by
  unfold nextAttestationCount at h
  split_ifs at h with hn
  · exact (checkedAdd_eq_some.1 (orOverflow_ok.1 h)).trans (by rw [if_pos hn]; rfl)
  · rw [← Except.ok.inj h, if_neg hn, Nat.add_zero]

theorem RosterSound.attestKyc {wallet : Pubkey} {reference : Bytes32} (hw : RosterSound w)
    (h : Effect rt now signer w (.attestKyc wallet reference) w') : RosterSound w' := by
  cases h with
  | @attestKyc _ _ count attestor subject counted =>
    have hcount := nextAttestationCount_ok counted
    refine ⟨?_, ?_, ?_, hw.enforced, hw.scope⟩
    · change count.toNat = (w.kycs.insert wallet _).keys.card
      cases hl : w.kycs.lookup wallet with
      | none =>
        rw [hl] at hcount
        rw [Accounts.card_insert_of_notMem _ hl, hcount, hw.counted]
        rfl
      | some a =>
        have hver : a.version ≠ 0 := by rw [hw.version wallet a hl]; decide
        rw [hl, Option.getD_some, decide_eq_false hver] at hcount
        rw [Accounts.card_insert_of_lookup _ hl, hcount, hw.counted]
        rfl
    · exact Accounts.forall_insert hw.version rfl
    · intro hf
      obtain ⟨hpos, hop⟩ := hw.armed hf
      have hpos := UInt32.lt_iff_toNat_lt.1 hpos
      exact ⟨UInt32.lt_iff_toNat_lt.2 (by rw [hcount]; omega), hop⟩

theorem RosterSound.revokeKyc {wallet : Pubkey} {allowDisarm : Bool} (hw : RosterSound w)
    (h : Effect rt now signer w (.revokeKyc wallet allowDisarm) w') : RosterSound w' := by
  cases h with
  | @revokeKyc _ _ acc outcome revoker found own resolved =>
    obtain ⟨hcount, hscope⟩ := resolveRevocation_ok resolved
    have hcard := Accounts.card_erase_add_one found
    have hbefore := hw.counted
    refine ⟨?_, ?_, ?_, rfl, ?_⟩
    · change outcome.countAfter.toNat = (w.kycs.erase wallet).keys.card
      omega
    · exact Accounts.forall_erase hw.version
    · intro hf
      rcases hscope with ⟨hs, hpos⟩ | ⟨hs, -⟩
      · exact ⟨hpos (hs ▸ hf), (hw.armed (hs ▸ hf)).2⟩
      · exact absurd hs hf
    · change sideFlagsValidAllowEmpty outcome.scopeAfter = true
      rcases hscope with ⟨hs, -⟩ | ⟨hs, -⟩
      · rw [hs]; exact hw.scope
      · rw [hs]; rfl

theorem RosterSound.setKycOperator {operator : Pubkey} (hw : RosterSound w)
    (h : Effect rt now signer w (.setKycOperator operator) w') : RosterSound w' := by
  cases h with
  | setKycOperator admin valid =>
    refine ⟨hw.counted, hw.version, ?_, hw.enforced, hw.scope⟩
    intro hf
    refine ⟨(hw.armed hf).1, ?_⟩
    intro hz
    simp only [validateKycOperatorAssignment, bind_ok, require_ok, exists_unit, if_pos hz,
      kycOperatorMayBeCleared, decide_eq_true_eq] at valid
    exact hf valid.2

theorem RosterSound.setKycScope {flags : UInt8} (hw : RosterSound w)
    (h : Effect rt now signer w (.setKycScope flags) w') : RosterSound w' := by
  cases h with
  | setKycScope admin flags_ok changed arming =>
    refine ⟨hw.counted, hw.version, ?_, rfl, flags_ok⟩
    intro hf
    simp only [validateKycArming, if_neg hf, bind_ok, require_ok, exists_unit] at arming
    exact ⟨arming.2, arming.1⟩

theorem RosterSound.effect {ix : Instruction} (hw : RosterSound w)
    (h : Effect rt now signer w ix w') : RosterSound w' := by
  cases ix with
  | setKycOperator operator => exact hw.setKycOperator h
  | setKycScope flags => exact hw.setKycScope h
  | attestKyc wallet reference => exact hw.attestKyc h
  | revokeKyc wallet allowDisarm => exact hw.revokeKyc h
  | execute k n rent ata =>
    cases h with
    | execute _ _ _ applied => exact hw.congr (.applied applied)
  | initializeAgain => cases h
  | _ => cases h; exact { hw with }

theorem kycScopeFlags_of_effect {ix : Instruction} (h : Effect rt now signer w ix w')
    (hs : signer ≠ w.config.admin) : w'.config.kycScopeFlags = w.config.kycScopeFlags := by
  cases h with
  | setKycScope admin => exact absurd admin.symm hs
  | revokeKyc revoker found own resolved =>
    rcases (resolveRevocation_ok resolved).2 with ⟨he, -⟩ | ⟨-, ha⟩
    · exact he
    · exact absurd (of_decide_eq_true ha) hs
  | execute _ _ _ applied => exact (SameRoles.applied applied).kycScopeFlags
  | _ => rfl

end Effects

/-- In every reachable state the roster is sound, and no step that somebody else than the admin
signs, the attestor included, moves the gate. -/
theorem kyc_roster {rt : Runtime} {w : World} (h : Reachable rt w) :
    RosterSound w ∧ ∀ c w', exec rt c w = .ok w' → c.signer ≠ w.config.admin →
      w'.config.kycScopeFlags = w.config.kycScopeFlags :=
  ⟨invariant_of_reachable rosterSound_initial RosterSound.effect
    (fun hw he => hw.congr (.external he)) h,
    fun _ _ hc hs => kycScopeFlags_of_effect (effect_of_exec hc).2 hs⟩

/-- An attestor, one wallet attested twice, and the gate armed on the mint side. -/
def rosterCalls : List Call :=
  [Reference.callAt 3000 Reference.admin (.setKycOperator (Reference.key 10)),
    Reference.callAt 3001 (Reference.key 10) (.attestKyc Reference.user Bytes32.zero),
    Reference.callAt 3002 (Reference.key 10) (.attestKyc Reference.user Bytes32.zero),
    Reference.callAt 3003 Reference.admin (.setKycScope SIDE_MINT_BIT)]

theorem kyc_roster_rosterCalls :
    RosterSound (Reference.final Reference.runtime Reference.start rosterCalls) :=
  (kyc_roster (Reference.reachable_final (by decide +kernel))).1

section Attestor

/-- The attestor, where there is one, is not the admin. -/
def Separate (w : World) : Prop :=
  w.config.kycOperator ≠ Bytes32.zero → w.config.kycOperator ≠ w.config.admin

/-- The attestor is not the admin, and no revocation it signs moves the gate. -/
structure AttestorApart (rt : Runtime) (w : World) : Prop where
  separate : Separate w
  powerless : ∀ c w' wallet allowDisarm, exec rt c w = .ok w' →
    c.ix = .revokeKyc wallet allowDisarm → c.signer = w.config.kycOperator →
      w'.config.kycScopeFlags = w.config.kycScopeFlags

/-- The step makes the attestor of the time the admin. -/
def HandsToAttestor (r : Entry) : Prop :=
  ∃ c, r.event = .call c ∧ c.ix = .acceptAdminTransfer ∧ c.signer = r.pre.config.kycOperator

variable {rt : Runtime} {w w' : World} {e : Event}

theorem Separate.attestorApart (h : Separate w) : AttestorApart rt w := by
  refine ⟨h, ?_⟩
  intro c w' wallet allowDisarm hc _ hs
  obtain ⟨hsign, he⟩ := effect_of_exec hc
  refine kycScopeFlags_of_effect he (hs ▸ h ?_)
  intro hz
  rw [hs, hz, rt.zero_cannot_sign] at hsign
  cases hsign

theorem Separate.congr (hw : Separate w) (h : SameRoles w w') : Separate w' := by
  unfold Separate
  rw [h.kycOperator, h.admin]
  exact hw

/-- Setting the attestor keeps the two apart, and so does every other step but an accept that the
attestor signs. -/
theorem Separate.step (hw : Separate w) (h : Step rt w e w') (ha : ¬ HandsToAttestor ⟨w, e, w'⟩) :
    Separate w' := by
  rcases step_cases h with ⟨⟨now, hnow, signer, ix⟩, rfl, -, he⟩ | ⟨-, he⟩
  · cases he with
    | setKycOperator admin valid =>
      simp only [validateKycOperatorAssignment, bind_ok, require_ok, exists_unit] at valid
      exact fun _ => valid.1
    | acceptAdminTransfer => exact fun _ heq => ha ⟨_, rfl, rfl, heq.symm⟩
    | execute _ _ _ applied => exact hw.congr (.applied applied)
    | _ => exact hw
  · exact hw.congr (.external he)

theorem not_separate_of_handsToAttestor (h : Step rt w e w')
    (ha : HandsToAttestor ⟨w, e, w'⟩) : ¬ Separate w' := by
  obtain ⟨c, rfl, hix, hs⟩ := ha
  obtain ⟨hsign, he⟩ := effect_of_exec h
  rw [hix] at he
  cases he with
  | acceptAdminTransfer =>
    intro hsep
    refine hsep ?_ hs.symm
    intro hz
    rw [hs.trans hz, rt.zero_cannot_sign] at hsign
    cases hsign

/-- The attestor stays apart from the admin over exactly the runs in which no attestor accepts the
admin's part. -/
theorem attestor_apart_iff {now₀ : ℤ} {w₀ : World} {es : List Entry}
    (h₀ : Initialized rt now₀ w₀) (run : Run rt w₀ es w) :
    (AttestorApart rt w₀ ∧ ∀ r ∈ es, AttestorApart rt r.post) ↔
      ∀ r ∈ es, ¬ HandsToAttestor r := by
  have hinit : Separate w₀ := by
    obtain ⟨args, g, t, m, d⟩ := deployed_of_initialized h₀
    obtain ⟨usdc, -, rfl⟩ := d.state
    exact fun hne => absurd rfl hne
  constructor
  · intro h r hr ha
    obtain ⟨_, _, hstep⟩ := run.step_of_mem hr
    exact not_separate_of_handsToAttestor hstep ha (h.2 r hr).separate
  · intro h
    refine ⟨hinit.attestorApart, ?_⟩
    intro r hr
    obtain ⟨before, after, rfl⟩ := List.append_of_mem hr
    obtain ⟨hrun, hstep, -⟩ := run.split
    have hpre : Separate r.pre := hrun.kept hinit Separate.step fun x hx =>
      h x (List.mem_append_left _ hx)
    exact (hpre.step hstep (h r hr)).attestorApart

theorem attestor_apart_rosterCalls :
    AttestorApart Reference.runtime
      (Reference.final Reference.runtime Reference.start rosterCalls) :=
  ((attestor_apart_iff Reference.initialized_start
    (@Reference.run_of_succeeds _ _ rosterCalls (by decide +kernel))).2 (by
      intro r hr ⟨c, hc, hix, _⟩
      exact Reference.forall_entries (p := fun c => c.ix ≠ .acceptAdminTransfer)
        (by simp [rosterCalls, Reference.callAt]) r hr c hc hix)).2 _ (List.getLast_mem (by decide))

/-- The attestor is named as the next admin and accepts a day later. -/
def handoverCalls : List Call :=
  [Reference.callAt 3000 Reference.admin (.setKycOperator (Reference.key 10)),
    Reference.callAt 3001 Reference.admin (.proposeAdminTransfer (Reference.key 10)),
    Reference.callAt 89401 (Reference.key 10) .acceptAdminTransfer]

/-- The attestor is the admin. -/
theorem attestor_not_apart_handoverCalls :
    Reachable Reference.runtime
        (Reference.final Reference.runtime Reference.start handoverCalls) ∧
      ¬ Separate (Reference.final Reference.runtime Reference.start handoverCalls) :=
  ⟨Reference.reachable_final (by decide +kernel), fun h => h (by decide +kernel)
    (by decide +kernel)⟩

end Attestor

end DominionSilver
