import DominionSilver.Proofs.Bounds
import DominionSilver.Sanity.Roles

/-! The handover of the admin's part. What is pending was proposed by the admin
of the time, and nobody has proposed, cancelled or accepted since, so an accept
comes a timelock after its own propose and within the expiry. -/

namespace DominionSilver

open Checked Bytes Tokens

def MovesTransfer (r : Entry) : Prop :=
  ∃ c, r.event = .call c ∧ ((∃ k, c.ix = .proposeAdminTransfer k) ∨ c.ix = .acceptAdminTransfer ∨
    ∃ guardian, c.ix = .cancelAdminTransfer guardian)

/-- The admin of the time proposes `k`, who may accept between `eta` and `expiresAt`. -/
def Nominates (k : Pubkey) (eta expiresAt : ℤ) (r : Entry) : Prop :=
  ∃ c, r.event = .call c ∧ c.ix = .proposeAdminTransfer k ∧ c.signer = r.pre.config.admin ∧
    eta = c.now + r.pre.config.adminTimelockSeconds.toNat ∧
    expiresAt = eta + PENDING_ADMIN_EXPIRY_SECONDS

def Pending (k : Pubkey) (eta expiresAt : ℤ) (w : World) : Prop :=
  w.config.pendingAdmin = some k ∧ w.config.pendingAdminEta = eta ∧
    w.config.pendingAdminExpiresAt = expiresAt

section Steps

variable {rt : Runtime} {w w' : World} {e : Event} {k : Pubkey} {eta expiresAt : ℤ}

theorem Pending.of_roles (hw : Pending k eta expiresAt w') (h : SameRoles w w') :
    Pending k eta expiresAt w := by
  unfold Pending at *
  rwa [← h.pendingAdmin, ← h.pendingAdminEta, ← h.pendingAdminExpiresAt]

theorem pending_step (h : Step rt w e w') (hp : Pending k eta expiresAt w') :
    Nominates k eta expiresAt ⟨w, e, w'⟩ ∨
      (Pending k eta expiresAt w ∧ ¬ MovesTransfer ⟨w, e, w'⟩) := by
  rcases step_cases h with ⟨⟨now, hnow, signer, ix⟩, rfl, -, he⟩ | ⟨rfl, he⟩
  · cases he with
    | proposeAdminTransfer admin _ _ _ delay expiry =>
      obtain ⟨hk, rfl, rfl⟩ := hp
      obtain rfl := Option.some.inj hk
      exact .inl ⟨_, rfl, rfl, admin.symm, delay, expiry⟩
    | acceptAdminTransfer => cases hp.1
    | cancelAdminTransfer => cases hp.1
    | execute _ _ _ applied =>
      exact .inr ⟨hp.of_roles (.applied applied), by rintro ⟨c, ⟨⟩, ⟨_, ⟨⟩⟩ | ⟨⟨⟩⟩ | ⟨_, ⟨⟩⟩⟩⟩
    | _ => exact .inr ⟨hp, by rintro ⟨c, ⟨⟩, ⟨_, ⟨⟩⟩ | ⟨⟨⟩⟩ | ⟨_, ⟨⟩⟩⟩⟩
  · exact .inr ⟨hp.of_roles (.external he), by rintro ⟨c, ⟨⟩, -⟩⟩

theorem admin_step (h : Step rt w e w') :
    (∃ c, e = .call c ∧ c.ix = .acceptAdminTransfer ∧ w'.config.admin = c.signer) ∨
      w'.config.admin = w.config.admin := by
  rcases step_cases h with ⟨⟨now, hnow, signer, ix⟩, rfl, -, he⟩ | ⟨rfl, he⟩
  · cases he with
    | acceptAdminTransfer => exact .inl ⟨_, rfl, rfl, rfl⟩
    | execute _ _ _ applied => exact .inr (SameRoles.applied applied).admin
    | _ => exact .inr rfl
  · exact .inr (SameRoles.external he).admin

end Steps

theorem nominated_of_pending {rt : Runtime} {now₀ : ℤ} {w₀ w : World} {es : List Entry}
    {k : Pubkey} {eta expiresAt : ℤ} (h₀ : Initialized rt now₀ w₀) (run : Run rt w₀ es w)
    (hp : Pending k eta expiresAt w) :
    Trace.Since (Nominates k eta expiresAt) MovesTransfer es := by
  refine run.since ?_ pending_step hp
  obtain ⟨args, g, t, m, d⟩ := deployed_of_initialized h₀
  obtain ⟨usdc, -, rfl⟩ := d.state
  exact fun h => nomatch h.1

/-- The accept at `now` follows a nomination of `k` by the admin of the time that no propose, accept
or cancel has followed, at least its timelock and at most its expiry before. -/
def Succeeds (before : List Entry) (k : Pubkey) (now : ℤ) : Prop :=
  Trace.Since (fun r => ∃ (c : Call) (eta : ℤ), r.event = .call c ∧ c.ix = .proposeAdminTransfer k ∧
      c.signer = r.pre.config.admin ∧ 86400 ≤ r.pre.config.adminTimelockSeconds ∧
      eta = c.now + r.pre.config.adminTimelockSeconds.toNat ∧ eta ≤ now ∧
      now ≤ eta + PENDING_ADMIN_EXPIRY_SECONDS)
    MovesTransfer before

/-- Over a run the admin changes at accepts only, each accept succeeds the propose it answers in
time, and no propose replaces a transfer that has not expired. -/
theorem admin_handover {rt : Runtime} {now₀ : ℤ} {w₀ w : World} {es : List Entry}
    (h₀ : Initialized rt now₀ w₀) (run : Run rt w₀ es w) :
    (∀ r ∈ es, r.post.config.admin ≠ r.pre.config.admin →
      ∃ c, r.event = .call c ∧ c.ix = .acceptAdminTransfer) ∧
    (∀ before r after, es = before ++ r :: after → ∀ c, r.event = .call c →
      c.ix = .acceptAdminTransfer →
        r.post.config.admin = c.signer ∧ Succeeds before c.signer c.now) ∧
    ∀ r ∈ es, ∀ c k, r.event = .call c → c.ix = .proposeAdminTransfer k →
      r.pre.config.pendingAdmin = none ∨ r.pre.config.pendingAdminExpiresAt < c.now := by
  refine ⟨?_, ?_, ?_⟩
  · intro r hr hne
    obtain ⟨_, _, hs⟩ := run.step_of_mem hr
    rcases admin_step hs with ⟨c, hc, hix, -⟩ | he
    · exact ⟨c, hc, hix⟩
    · exact absurd he hne
  · rintro before ⟨pre, event, post⟩ after rfl c rfl hix
    obtain ⟨hrun, hs, -⟩ := run.split
    have he : Effect rt c.now c.signer pre _ post := effect_of_call hs hix
    cases he with
    | acceptAdminTransfer pending inTime due =>
      refine ⟨rfl, ?_⟩
      refine (nominated_of_pending h₀ hrun ⟨pending, rfl, rfl⟩).imp ?_
      rintro r hr ⟨p, hp, hpix, hps, heta, hexp⟩
      obtain ⟨as, hbefore, -⟩ := hrun.step_of_mem hr
      have hb : Bounded r.pre.config := bounded_of_reachable ⟨now₀, w₀, as, h₀, hbefore⟩
      exact ⟨p, _, hp, hpix, hps, hb.adminTimelockSeconds.1, heta, due, hexp ▸ inTime⟩
  · rintro ⟨pre, event, post⟩ hr c k rfl hix
    obtain ⟨_, _, hs⟩ := run.step_of_mem hr
    have he : Effect rt c.now c.signer pre _ post := effect_of_call hs hix
    cases he with
    | proposeAdminTransfer _ free => exact free

def transferCalls : List Call :=
  [Reference.callAt 3000 Reference.admin (.proposeAdminTransfer (Reference.key 10)),
    Reference.callAt 3001 Reference.guardian (.cancelAdminTransfer true),
    Reference.callAt 3002 Reference.admin (.proposeAdminTransfer (Reference.key 11)),
    Reference.callAt 89402 (Reference.key 11) .acceptAdminTransfer]

theorem admin_handover_transferCalls :
    Succeeds (Reference.entries Reference.runtime Reference.start (transferCalls.take 3))
      (Reference.key 11) 89402 :=
  ((admin_handover Reference.initialized_start
    (@Reference.run_of_succeeds _ _ transferCalls (by decide +kernel))).2.1 _
      ⟨_, .call (Reference.callAt 89402 (Reference.key 11) .acceptAdminTransfer), _⟩ _ rfl _ rfl
        rfl).2

end DominionSilver
