import DominionSilver.Proofs.Notice
import DominionSilver.Sanity.Roles

/-! The two halves of an unpause. The digest it carries fixes the fields that the
decision to go live reads, so it goes stale when one of them moves; the guardian
it presents is one that can pull the brake, as long as only keys that can sign are
appointed. -/

namespace DominionSilver

open Checked Bytes Tokens

section Digest

structure SameReadiness (c c' : ConfigAccount) : Prop where
  admin : c'.admin = c.admin
  silvMint : c'.silvMint = c.silvMint
  inventoryWallet : c'.inventoryWallet = c.inventoryWallet
  publicMintEnabled : c'.publicMintEnabled = c.publicMintEnabled
  redemptionsEnabled : c'.redemptionsEnabled = c.redemptionsEnabled
  guardianCount : c'.guardianCount = c.guardianCount
  minPublishers : c'.minPublishers = c.minPublishers
  pythLazerFeedId : c'.pythLazerFeedId = c.pythLazerFeedId

theorem flag_inj {a b : Bool} (h : (if a then 1 else 0 : UInt8) = if b then 1 else 0) : a = b := by
  cases a <;> cases b <;> first | rfl | exact absurd h (by decide)

theorem readinessBytes_eq_iff {c c' : ConfigAccount} :
    c'.readinessBytes = c.readinessBytes ↔ SameReadiness c c' := by
  constructor
  · intro h
    unfold ConfigAccount.readinessBytes at h
    obtain ⟨h, hfeed⟩ := List.append_inj' h (by simp)
    obtain ⟨h, hpublishers⟩ := List.append_inj' h (by simp)
    obtain ⟨h, hflags⟩ := List.append_inj' h rfl
    obtain ⟨h, hwallet⟩ := List.append_inj' h (by rw [Bytes32.size, Bytes32.size])
    obtain ⟨hadmin, hmint⟩ := List.append_inj' h (by rw [Bytes32.size, Bytes32.size])
    simp only [List.cons.injEq, and_true] at hflags
    exact ⟨Bytes32.bytes_injective hadmin, Bytes32.bytes_injective hmint,
      Bytes32.bytes_injective hwallet, flag_inj hflags.1, flag_inj hflags.2.1, hflags.2.2,
      toLEBytes_injective hpublishers, toLEBytes_injective hfeed⟩
  · intro h
    unfold ConfigAccount.readinessBytes
    rw [h.admin, h.silvMint, h.inventoryWallet, h.publicMintEnabled, h.redemptionsEnabled,
      h.guardianCount, h.minPublishers, h.pythLazerFeedId]

/-- What the decision to go live reads of the fields that the execute of `k` writes. -/
def SameWatched (k : TimelockAction) (c c' : ConfigAccount) : Prop :=
  match k with
  | .setOracleGuards => c'.minPublishers = c.minPublishers
  | .setPythFeed => c'.pythLazerFeedId = c.pythLazerFeedId
  | .setRedeemLimits => c'.redemptionsEnabled = c.redemptionsEnabled
  | .setPublicMint => c'.publicMintEnabled = c.publicMintEnabled
  | .setInventoryWallet => c'.inventoryWallet = c.inventoryWallet
  | .setPremiumMint | .setPremiumRedeem | .withdrawUsdc | .setTreasuryFloat | .updateMetadata
  | .setComplianceMode | .setAdminTimelock => True

theorem SameReadiness.sameWatched {c c' : ConfigAccount} (h : SameReadiness c c')
    (k : TimelockAction) : SameWatched k c c' := by
  cases k with
  | setOracleGuards => exact h.minPublishers
  | setPythFeed => exact h.pythLazerFeedId
  | setRedeemLimits => exact h.redemptionsEnabled
  | setPublicMint => exact h.publicMintEnabled
  | setInventoryWallet => exact h.inventoryWallet
  | _ => trivial

/-- An executed change moves the readiness through the watched field of its kind alone. -/
theorem sameReadiness_of_applied {rt : Runtime} {ata : Pubkey} {w w₁ : World} {change : Change}
    (h : Applied rt ata w change w₁) (hs : SameWatched change.kind w.config w₁.config) :
    SameReadiness w.config w₁.config := by
  cases h with
  | oracleGuards => exact ⟨rfl, rfl, rfl, rfl, rfl, rfl, hs, rfl⟩
  | pythFeed => exact ⟨rfl, rfl, rfl, rfl, rfl, rfl, rfl, hs⟩
  | redeemLimits => exact ⟨rfl, rfl, rfl, rfl, hs, rfl, rfl, rfl⟩
  | publicMint => exact ⟨rfl, rfl, rfl, hs, rfl, rfl, rfl, rfl⟩
  | inventoryWallet => exact ⟨rfl, rfl, hs, rfl, rfl, rfl, rfl, rfl⟩
  | _ => exact ⟨rfl, rfl, rfl, rfl, rfl, rfl, rfl, rfl⟩

theorem sameReadiness_of_executes {rt : Runtime} {r : Entry} {k : TimelockAction} {n : UInt64}
    (hstep : Step rt r.pre r.event r.post) (hr : Executes k n r)
    (hs : SameWatched k r.pre.config r.post.config) :
    SameReadiness r.pre.config r.post.config := by
  obtain ⟨pre, event, post⟩ := r
  obtain ⟨c, rent, ata, rfl, hix⟩ := hr
  have he : Effect rt c.now c.signer pre _ post := effect_of_call hstep hix
  cases he with
  | @execute _ _ _ _ _ change w₁ _ _ kind applied =>
    subst kind
    have hsame : SameReadiness pre.config w₁.config := by
      refine sameReadiness_of_applied applied ?_
      cases hk : change.kind <;> rw [hk] at hs <;> exact hs
    exact { hsame with }

/-- A digest is refused once a watched field has moved. Two configs have one digest exactly when
they agree on all that the decision reads, and an execute that leaves the watched field of its kind
as it was does not move the digest. -/
theorem stale_unpause_refused {rt : Runtime} {w w' : World} {es : List Entry}
    (run : Run rt w es w')
    (hash : rt.hash w'.config.readinessBytes = rt.hash w.config.readinessBytes →
      w'.config.readinessBytes = w.config.readinessBytes) :
    (∀ k, ¬ SameWatched k w.config w'.config → ∀ c g w'',
      c.ix = .unpause (rt.hash w.config.readinessBytes) g → exec rt c w' ≠ .ok w'') ∧
    (rt.hash w'.config.readinessBytes = rt.hash w.config.readinessBytes ↔
      SameReadiness w.config w'.config) ∧
    ∀ r ∈ es, ∀ k n, Executes k n r → SameWatched k r.pre.config r.post.config →
      rt.hash r.post.config.readinessBytes = rt.hash r.pre.config.readinessBytes := by
  refine ⟨?_, ⟨fun h => readinessBytes_eq_iff.1 (hash h), fun h => ?_⟩, ?_⟩
  · intro k hk c g w'' hix hexec
    have he := effect_of_call hexec hix
    cases he with
    | unpause _ _ _ _ _ _ ready =>
      apply hk
      exact (readinessBytes_eq_iff.1 (hash ready)).sameWatched k
  · rw [readinessBytes_eq_iff.2 h]
  · intro r hr k n hx hs
    obtain ⟨_, _, hstep⟩ := run.step_of_mem hr
    rw [readinessBytes_eq_iff.2 (sameReadiness_of_executes hstep hx hs)]

def lastBytes (bs : List UInt8) : Bytes32 := Reference.hash bs.reverse

def feedCalls : List Call :=
  [Reference.callAt 3000 Reference.admin (.propose (.pythFeed 346)),
    Reference.callAt 89400 Reference.admin
      (.execute .setPythFeed 0 Reference.admin Reference.admin)]

def tailRuntime : Runtime := { Reference.runtime with hash := lastBytes }

theorem stale_unpause_refused_feedCalls :
    (exec tailRuntime (Reference.callAt 89401 Reference.admin
        (.unpause (lastBytes Reference.start.config.readinessBytes) Reference.guardian))
      (Reference.final tailRuntime Reference.start feedCalls)).isOk = false := by
  have hrefused := (stale_unpause_refused (@Reference.run_of_succeeds tailRuntime Reference.start
    feedCalls (by decide +kernel)) fun h => absurd h (by decide +kernel)).1 .setPythFeed
      (show (Reference.final tailRuntime Reference.start feedCalls).config.pythLazerFeedId ≠
        Reference.start.config.pythLazerFeedId by decide +kernel)
  cases hr : exec tailRuntime (Reference.callAt 89401 Reference.admin
      (.unpause (lastBytes Reference.start.config.readinessBytes) Reference.guardian))
    (Reference.final tailRuntime Reference.start feedCalls) with
  | error e => rfl
  | ok w => exact absurd hr (hrefused _ Reference.guardian w rfl)

/-- A new treasury float leaves the bytes as they were, and the unpause goes through. -/
theorem stale_unpause_accepted_floatCalls :
    Reachable Reference.runtime Reference.start ∧
    Run Reference.runtime Reference.start
      (Reference.entries Reference.runtime Reference.start Reference.floatCalls)
      (Reference.final Reference.runtime Reference.start Reference.floatCalls) ∧
    (Reference.final Reference.runtime Reference.start
        Reference.floatCalls).config.treasuryMinFloatUsdc ≠
      Reference.start.config.treasuryMinFloatUsdc ∧
    (Reference.final Reference.runtime Reference.start Reference.floatCalls).config.readinessBytes =
      Reference.start.config.readinessBytes ∧
    (exec Reference.runtime (Reference.callAt 89401 Reference.admin
        (.unpause (Reference.hash Reference.start.config.readinessBytes) Reference.guardian))
      (Reference.final Reference.runtime Reference.start Reference.floatCalls)).isOk = true :=
  ⟨@Reference.reachable_final [] rfl, Reference.run_of_succeeds (by decide +kernel),
    by decide +kernel, by decide +kernel, by decide +kernel⟩

end Digest

section Brake

/-- No active guardian is the key that nobody can sign with. -/
def NoDefaultGuardian (w : World) : Prop :=
  ∀ k g, w.guardians.lookup k = some g → g.cooldownUntil = 0 → g.guardian ≠ Bytes32.zero

/-- Every active guardian is a key that can sign, and so none is the default one. -/
structure Manned (rt : Runtime) (w : World) : Prop where
  noDefault : NoDefaultGuardian w
  signs : ∀ k g, w.guardians.lookup k = some g → g.cooldownUntil = 0 →
    rt.canSign g.guardian = true

/-- The guardian `k` that an unpause presents after `before`: active, appointed at the deployment or
by an add, not the admin, able to sign, and its pause is accepted. -/
structure Brake (rt : Runtime) (w₀ : World) (before : List Entry) (k : Pubkey) (w : World) :
    Prop where
  active : ∃ g, w.guardians.lookup k = some g ∧ g.guardian = k ∧ g.cooldownUntil = 0
  registered : (w₀.guardians.lookup k).isSome ∨
    ∃ x ∈ before, ∃ c, x.event = .call c ∧ c.ix = .addGuardian k
  independent : k ≠ w.config.admin
  notDefault : k ≠ Bytes32.zero
  signable : rt.canSign k = true
  pauses : ∀ c : Call, c.signer = k → c.ix = .pause true →
    exec rt c w = .ok { w with config := { w.config with paused := true } }

/-- The step appoints a key that cannot sign. -/
def AppointsUnsignable (rt : Runtime) (r : Entry) : Prop :=
  ∃ c k, r.event = .call c ∧ c.ix = .addGuardian k ∧ rt.canSign k ≠ true

variable {rt : Runtime} {w₀ w w' : World} {e : Event} {es : List Entry} {k : Pubkey}
  {g : GuardianAccount}

theorem pause_of_mayAct {c : Call} (hl : w.guardians.lookup c.signer = some g)
    (hg : g.mayAct c.signer w.config.admin = true) (hs : rt.canSign c.signer = true)
    (hix : c.ix = .pause true) :
    exec rt c w = .ok { w with config := { w.config with paused := true } } := by
  simp only [exec, hix, dispatch, pauseHandler, bind_ok, constrain_ok, require_ok, exists_unit,
    pure_ok]
  refine ⟨hs, some g, ?_, ?_, trivial⟩
  · simp [optionalAccount, hl, existing, okOr, bind, Except.bind, pure, Except.pure]
  · simp [isAdminOrGuardian, hg]

theorem registered_of_lookup (run : Run rt w₀ es w) (hl : w.guardians.lookup k = some g) :
    (w₀.guardians.lookup k).isSome ∨ ∃ x ∈ es, ∃ c, x.event = .call c ∧ c.ix = .addGuardian k := by
  by_cases h₀ : (w₀.guardians.lookup k).isSome = true
  · exact .inl h₀
  have hsince : Trace.Since (fun x : Entry => ∃ c, x.event = .call c ∧ c.ix = .addGuardian k)
      (fun _ => False) es := by
    refine run.since (A := fun w => (w.guardians.lookup k).isSome = true) h₀ ?_ (by rw [hl]; rfl)
    intro w e w' hstep hA
    rcases guardian_cases hstep k with ⟨c, g, rfl, -, hr⟩ | ⟨-, hk⟩
    · cases hr with
      | add ix => exact .inl ⟨c, rfl, ix⟩
      | remove _ found => exact .inr ⟨by rw [found]; rfl, not_false⟩
      | finalize _ found => exact .inr ⟨by rw [found]; rfl, not_false⟩
      | cancel _ found => exact .inr ⟨by rw [found]; rfl, not_false⟩
    · exact .inr ⟨hk ▸ hA, not_false⟩
  obtain ⟨as, x, bs, rfl, hx, -⟩ := hsince
  exact .inr ⟨x, by simp, hx⟩

theorem canSign_of_lookup (hdeployed : ∀ k g, w₀.guardians.lookup k = some g → rt.canSign k = true)
    (hadds : ∀ r ∈ es, ¬ AppointsUnsignable rt r) (run : Run rt w₀ es w)
    (hl : w.guardians.lookup k = some g) : rt.canSign k = true := by
  rcases registered_of_lookup run hl with h₀ | ⟨x, hx, c, hc, hix⟩
  · obtain ⟨g₀, hg₀⟩ := Option.isSome_iff_exists.1 h₀
    exact hdeployed k g₀ hg₀
  · by_contra hno
    exact hadds x hx ⟨c, k, hc, hix, hno⟩

theorem manned_of_canSign (hown : OwnKeys w)
    (hsign : ∀ k g, w.guardians.lookup k = some g → rt.canSign k = true) : Manned rt w := by
  have hsigns : ∀ k g, w.guardians.lookup k = some g → rt.canSign g.guardian = true := by
    intro k g hl
    rw [hown k g hl]
    exact hsign k g hl
  refine ⟨fun k g hl _ hz => ?_, fun k g hl _ => hsigns k g hl⟩
  have hzero := hsigns k g hl
  rw [hz, rt.zero_cannot_sign] at hzero
  cases hzero

theorem appointed_active (h : Step rt w e w') (ha : AppointsUnsignable rt ⟨w, e, w'⟩) :
    ¬ Manned rt w' := by
  obtain ⟨⟨now, hnow, signer, ix⟩, k, rfl, rfl, hk⟩ := ha
  have he : Effect rt now signer w (.addGuardian k) w' := (effect_of_exec h).2
  cases he with
  | addGuardian => exact fun hw => hk (hw.signs _ _ (Finmap.lookup_insert _) rfl)

theorem deployed_active {now : ℤ} (h : Initialized rt now w) (hl : w.guardians.lookup k = some g) :
    g.guardian = k ∧ g.cooldownUntil = 0 := by
  refine ⟨ownKeys_initial h k g hl, ?_⟩
  obtain ⟨args, _, _, _, d⟩ := deployed_of_initialized h
  obtain ⟨_, -, rfl⟩ := d.state
  by_cases hk : k = args.guardian
  · subst hk
    rw [Finmap.lookup_insert] at hl
    obtain rfl := Option.some.inj hl
    rfl
  · rw [Finmap.lookup_insert_of_ne _ hk, Finmap.lookup_empty] at hl
    cases hl

/-- The brake is held by a key that can sign over exactly the runs whose appointments, the one of
the deployment included, name keys that can sign. -/
theorem brake_held_iff {now₀ : ℤ} (h₀ : Initialized rt now₀ w₀) (run : Run rt w₀ es w) :
    ((Manned rt w₀ ∧ ∀ r ∈ es, Manned rt r.post) ∧
      ∀ before r after, es = before ++ r :: after → ∀ c digest k, r.event = .call c →
        c.ix = .unpause digest k → Brake rt w₀ before k r.pre) ↔
    (∀ k g, w₀.guardians.lookup k = some g → rt.canSign k = true) ∧
      ∀ r ∈ es, ¬ AppointsUnsignable rt r := by
  constructor
  · rintro ⟨⟨hfirst, hlater⟩, -⟩
    refine ⟨fun k g hl => ?_, fun r hr ha => ?_⟩
    · obtain ⟨hown, hactive⟩ := deployed_active h₀ hl
      exact hown ▸ hfirst.signs k g hl hactive
    · obtain ⟨_, _, hstep⟩ := run.step_of_mem hr
      exact appointed_active hstep ha (hlater r hr)
  rintro ⟨hdeployed, hadds⟩
  have hmanned : ∀ bs w, (∀ r ∈ bs, r ∈ es) → Run rt w₀ bs w → Manned rt w := by
    intro bs w hsub hrun
    refine manned_of_canSign (hrun.invariant (ownKeys_initial h₀) OwnKeys.step) fun k g hl => ?_
    exact canSign_of_lookup hdeployed (fun r hr => hadds r (hsub r hr)) hrun hl
  refine ⟨⟨hmanned [] w₀ (fun r hr => absurd hr List.not_mem_nil) .nil, fun r hr => ?_⟩, ?_⟩
  · obtain ⟨before, after, rfl⟩ := List.append_of_mem hr
    obtain ⟨hrun, hstep, -⟩ := run.split
    refine hmanned (before ++ [r]) r.post (fun x hx => ?_) (hrun.snoc hstep)
    simp only [List.mem_append, List.mem_cons, List.not_mem_nil, or_false] at hx ⊢
    exact hx.imp_right .inl
  · rintro before ⟨pre, event, post⟩ after rfl c digest k rfl hix
    obtain ⟨hrun, hstep, -⟩ := run.split
    have he : Effect rt c.now c.signer pre _ post := effect_of_call hstep hix
    cases he with
    | @unpause _ _ g _ found own active _ independent =>
      have hsign : rt.canSign k = true :=
        canSign_of_lookup hdeployed (fun r hr => hadds r (List.mem_append_left _ hr)) hrun found
      have hzero : k ≠ Bytes32.zero := by
        rintro rfl
        exact absurd hsign (by rw [rt.zero_cannot_sign]; decide)
      refine ⟨⟨g, found, own, active⟩, registered_of_lookup hrun found, own ▸ independent, hzero,
        hsign, ?_⟩
      intro p hp hpix
      subst hp
      refine pause_of_mayAct found ?_ hsign hpix
      simp [GuardianAccount.mayAct, own, active, own ▸ independent]

theorem brake_held_iff_unpauseCall :
    Brake Reference.runtime Reference.start [] Reference.guardian Reference.start := by
  refine ((brake_held_iff Reference.initialized_start
    (@Reference.run_of_succeeds _ _ [Reference.unpauseCall] (by decide +kernel))).2
      ⟨fun k g hl => ?_, ?_⟩).2 [] _ [] rfl Reference.unpauseCall _ _ rfl rfl
  · obtain ⟨hown, -⟩ := deployed_active Reference.initialized_start hl
    by_cases hk : k = Reference.guardian
    · subst hk
      decide
    · have hnone : Reference.start.guardians.lookup k = none :=
        (Finmap.lookup_insert_of_ne _ hk).trans (Finmap.lookup_empty k)
      cases hl.symm.trans hnone
  · rintro r hr ⟨c, k, hc, hix, -⟩
    exact Reference.forall_entries (p := fun c => ∀ k, c.ix ≠ .addGuardian k)
      (by simp [Reference.unpauseCall, Reference.callAt]) r hr c hc k hix

def defaultCalls : List Call :=
  [Reference.callAt 3000 Reference.admin (.addGuardian Bytes32.zero)]

/-- It is an active guardian, and the admin unpauses before it. -/
theorem brake_not_held_defaultCalls :
    Reachable Reference.runtime
        (Reference.final Reference.runtime Reference.start defaultCalls) ∧
      ¬ NoDefaultGuardian (Reference.final Reference.runtime Reference.start defaultCalls) ∧
      (exec Reference.runtime (Reference.callAt 3001 Reference.admin
          (.unpause (Reference.hash (Reference.final Reference.runtime Reference.start
            defaultCalls).config.readinessBytes) Bytes32.zero))
        (Reference.final Reference.runtime Reference.start defaultCalls)).isOk = true :=
  ⟨Reference.reachable_final (by decide +kernel),
    fun h => h Bytes32.zero ⟨Bytes32.zero, 3000, 0, 0, false⟩ (by decide +kernel) rfl rfl,
    by decide +kernel⟩

end Brake

end DominionSilver
