import DominionSilver.Spec.AdminActions
import DominionSilver.Proofs.Timelock
import DominionSilver.Proofs.Unpause
import DominionSilver.Proofs.Views

/-! Instructions that the console builds from one state and the admin's vault carries out in a later
one. A proposal names the queue account of the nonce that was next when it was built, so of all that
were built from one state at most one is ever queued. An unpause names a guardian and the digest of
the config, and goes through for as long as the guardian may act and nothing that was digested has
moved. -/

namespace DominionSilver

open AdminApp Checked Doubles Listing

section Proposals

variable {rt : Runtime} {w₀ w w' : World} {e : Event} {es : List Entry} {admin : Pubkey}
  {change : Change} {now : ℤ} {hnow : I64 now}

/-- The step queues a change. -/
def Queues (r : Entry) : Prop := ∃ c change, r.event = .call c ∧ c.ix = .propose change

theorem nextNonce_step (h : Step rt w e w') :
    Queues ⟨w, e, w'⟩ ∧ w.config.nextTimelockNonce.toNat < w'.config.nextTimelockNonce.toNat ∨
      ¬ Queues ⟨w, e, w'⟩ ∧ w'.config.nextTimelockNonce = w.config.nextTimelockNonce := by
  rcases step_cases h with ⟨⟨now, hnow, signer, ix⟩, rfl, -, he⟩ | ⟨rfl, he⟩
  · by_cases hq : ∃ change, ix = .propose change
    · obtain ⟨change, rfl⟩ := hq
      exact .inl ⟨⟨_, change, rfl, rfl⟩, nextNonce_propose he⟩
    · refine .inr ⟨?_, ?_⟩
      · rintro ⟨c, change, hc, hix⟩
        obtain rfl := Event.call.inj hc
        exact hq ⟨change, hix⟩
      · cases he with
        | propose => exact absurd ⟨_, rfl⟩ hq
        | execute _ _ _ applied => rw [closeTimelock, (queue_of_applied applied).2.2.1]
        | _ => rfl
  · refine .inr ⟨?_, by rw [he.config]⟩
    rintro ⟨c, change, hc, -⟩
    cases hc

theorem nextNonce_le (run : Run rt w₀ es w) :
    w₀.config.nextTimelockNonce.toNat ≤ w.config.nextTimelockNonce.toNat := by
  refine run.related (R := fun w w' => w.config.nextTimelockNonce.toNat ≤
      w'.config.nextTimelockNonce.toNat) (I := fun _ => True) (p := fun _ => True)
    (fun _ => le_rfl) le_trans trivial (fun _ _ => trivial) ?_ fun _ _ => trivial
  intro w e w' _ h _
  exact (issuedNonce_step h).1

theorem nextNonce_lt (run : Run rt w₀ es w) {r : Entry} (hr : r ∈ es) (hq : Queues r) :
    w₀.config.nextTimelockNonce.toNat < w.config.nextTimelockNonce.toNat := by
  obtain ⟨before, after, rfl⟩ := List.append_of_mem hr
  obtain ⟨hbefore, hstep, hafter⟩ := run.split
  rcases nextNonce_step hstep with ⟨-, hlt⟩ | ⟨hnot, -⟩
  · exact (nextNonce_le hbefore).trans_lt (hlt.trans_le (nextNonce_le hafter))
  · exact absurd hq hnot

theorem nextNonce_kept (run : Run rt w₀ es w) (hq : ∀ r ∈ es, ¬ Queues r) :
    w.config.nextTimelockNonce = w₀.config.nextTimelockNonce := by
  refine run.kept (B := fun w => w.config.nextTimelockNonce = w₀.config.nextTimelockNonce) rfl ?_ hq
  intro w e w' hw h hnot
  rcases nextNonce_step h with ⟨hq, -⟩ | ⟨-, heq⟩
  · exact absurd hq hnot
  · exact heq.trans hw

theorem exec_propose_current (hn : w.config.nextTimelockNonce = w₀.config.nextTimelockNonce) :
    (AdminApp.propose w₀.config admin change).exec rt now hnow w =
      exec rt ⟨now, hnow, admin, .propose change⟩ w := by
  by_cases hs : rt.canSign admin = true
  · simp [Message.exec, AdminApp.propose, exec, constrain, guardOr, hs, hn, bind, Except.bind]
  · simp [Message.exec, AdminApp.propose, exec, constrain, guardOr, hs, bind, Except.bind]

theorem exec_propose_stale (hn : w.config.nextTimelockNonce ≠ w₀.config.nextTimelockNonce)
    (hs : rt.canSign admin = true) :
    (AdminApp.propose w₀.config admin change).exec rt now hnow w = .error (.constraint .seeds) := by
  simp [Message.exec, AdminApp.propose, constrain, guardOr, hs, hn.symm, bind, Except.bind]

/-- The step carries out the message. -/
def Lands (rt : Runtime) (m : Message) (r : Entry) : Prop :=
  ∃ now hnow, r.event = .call ⟨now, hnow, m.signer, m.ix⟩ ∧ m.exec rt now hnow r.pre = .ok r.post

/-- A proposal staged on a state is the propose itself until some proposal is queued, and is dead
from then on, whatever the order of the steps. So of all the proposals that are staged on one state,
whoever signs them, at most one ever lands: the ceremonies have to be run one after the other. -/
theorem staged_propose (run : Run rt w₀ es w) (admin : Pubkey) (change : Change) :
    (∀ now hnow, (∀ r ∈ es, ¬ Queues r) →
      (AdminApp.propose w₀.config admin change).exec rt now hnow w =
        exec rt ⟨now, hnow, admin, .propose change⟩ w) ∧
    (∀ now hnow, (∃ r ∈ es, Queues r) → rt.canSign admin = true →
      (AdminApp.propose w₀.config admin change).exec rt now hnow w =
        .error (.constraint .seeds)) ∧
    ∀ before r after, es = before ++ r :: after →
      Lands rt (AdminApp.propose w₀.config admin change) r → ∀ r' ∈ after, ∀ admin' change',
        ¬ Lands rt (AdminApp.propose w₀.config admin' change') r' := by
  refine ⟨fun _ _ hnone => exec_propose_current (nextNonce_kept run hnone), ?_, ?_⟩
  · rintro now hnow ⟨r, hr, hq⟩ hs
    exact exec_propose_stale (fun h => (nextNonce_lt run hr hq).ne' (congrArg _ h)) hs
  · rintro before r after rfl ⟨now, hnow, hevent, -⟩ r' hr' admin' change' ⟨now', hnow', hevent', hok⟩
    obtain ⟨mid, late, rfl⟩ := List.append_of_mem hr'
    have hrun : Run rt w₀ (before ++ r :: mid) r'.pre := by
      rw [← List.cons_append, ← List.append_assoc] at run
      exact run.split.1
    have hlt := nextNonce_lt hrun (r := r) (by simp) ⟨_, change, hevent, rfl⟩
    have hs : rt.canSign admin' = true := by
      by_contra hs
      simp [Message.exec, AdminApp.propose, constrain, guardOr, hs, bind, Except.bind] at hok
    rw [exec_propose_stale (fun h => hlt.ne' (congrArg _ h)) hs] at hok
    cases hok

/-- Staged beside a proposal that is queued and carried out first. -/
theorem staged_propose_floatCalls :
    (AdminApp.propose Reference.start.config Reference.admin (.premiumMint 100)).exec
        Reference.runtime 89401 (by decide)
        (Reference.final Reference.runtime Reference.start Reference.floatCalls) =
      .error (.constraint .seeds) :=
  (staged_propose (@Reference.run_of_succeeds _ _ Reference.floatCalls (by decide +kernel))
    Reference.admin (.premiumMint 100)).2.1 89401 (by decide)
      ⟨_, List.mem_cons_self, Reference.proposeFloat, .treasuryFloat 7, rfl, rfl⟩ rfl

end Proposals

section Unpause

variable {rt : Runtime} {w₀ w : World} {es : List Entry} {rows : List GuardianAccount}
  {admin : Pubkey} {fetchedAdmin : Option Pubkey} {nowSecs : ℤ}

theorem readinessBytes_eq (c : ConfigAccount) : AdminApp.readinessBytes c = c.readinessBytes := by
  simp only [AdminApp.readinessBytes, ConfigAccount.readinessBytes, List.append_assoc,
    List.cons_append, List.nil_append, UInt8.ofNat_toNat]
  rfl

theorem head_filter_newest {views : List GuardianView} {v : GuardianView} {rest : List GuardianView}
    (hsorted : views.Pairwise fun x y => y.addedAt ≤ x.addedAt)
    (hv : views.filter (fun g => g.active) = v :: rest) :
    ∀ u ∈ views, u.active = true → u.addedAt ≤ v.addedAt := by
  have hfiltered := hsorted.filter fun g => g.active
  rw [hv, List.pairwise_cons] at hfiltered
  intro u hu hactive
  have hmem : u ∈ v :: rest := hv ▸ List.mem_filter.2 ⟨hu, hactive⟩
  rcases List.mem_cons.1 hmem with rfl | hrest
  · exact le_rfl
  · exact hfiltered.1 u hrest

/-- A guardian is active, and not the key that the console takes for the admin. -/
def Eligible (w : World) (onchainAdmin k : Pubkey) : Prop :=
  ∃ g, w.guardians.lookup k = some g ∧ g.mayAct k onchainAdmin = true

theorem unpause_cases [BnJs] (h : Reachable rt w₀) (hrows : Lists rows w₀.guardians.lookup)
    (hnow : Safe nowSecs) :
    (AdminApp.unpause rt w₀.config rows admin fetchedAdmin nowSecs = .error .unsafeNumber ∧
      ∃ k g, w₀.guardians.lookup k = some g ∧ ¬ Safe g.pendingRemovalAt) ∨
    (∀ k g, w₀.guardians.lookup k = some g → Safe g.pendingRemovalAt) ∧
      ((AdminApp.unpause rt w₀.config rows admin fetchedAdmin nowSecs = .error .noEligibleGuardian ∧
          ∀ k, ¬ Eligible w₀ (fetchedAdmin.getD admin) k) ∨
        ∃ g, AdminApp.unpause rt w₀.config rows admin fetchedAdmin nowSecs =
            .ok ⟨admin, none, .unpause (rt.hash w₀.config.readinessBytes) g.guardian⟩ ∧
          w₀.guardians.lookup g.guardian = some g ∧
          Eligible w₀ (fetchedAdmin.getD admin) g.guardian ∧
          ∀ g', w₀.guardians.lookup g'.guardian = some g' →
            Eligible w₀ (fetchedAdmin.getD admin) g'.guardian → g'.addedAt ≤ g.addedAt) := by
  have hown := (scheduledActive_of_reachable h).1
  generalize honchain : fetchedAdmin.getD admin = onchainAdmin
  have hnone := @fetchGuardians_eq_none onchainAdmin _ _ hnow rows
  cases hviews : fetchGuardians rows (some onchainAdmin) nowSecs with
  | none =>
    obtain ⟨a, ha, hbad⟩ := hnone.1 hviews
    obtain ⟨k, hk⟩ := (hrows a).1 ha
    refine .inl ⟨?_, k, a, hk, hbad⟩
    simp [AdminApp.unpause, honchain, hviews, okOr, bind, Except.bind]
  | some views =>
    obtain ⟨hsorted, hperm⟩ := fetchGuardians_eq_some hnow hviews
    have hmem := fun v => mem_iff (b := v) hrows hown hperm
    -- a guardian that is eligible has a row that is marked
    have hrow : ∀ k, Eligible w₀ onchainAdmin k → ∃ a, a.guardian = k ∧
        w₀.guardians.lookup k = some a ∧ rosterRow onchainAdmin nowSecs a ∈ views ∧
        (rosterRow onchainAdmin nowSecs a).active = true := by
      rintro k ⟨a, ha, hmay⟩
      obtain rfl := hown k a ha
      exact ⟨a, rfl, ha, (hmem _).2 ⟨a, ha, rfl⟩, hmay⟩
    refine .inr ⟨?_, ?_⟩
    · intro k a hk
      by_contra hbad
      rw [hnone.2 ⟨a, (hrows a).2 ⟨k, hk⟩, hbad⟩] at hviews
      cases hviews
    cases heligible : views.filter (fun g => g.active) with
    | nil =>
      refine .inl ⟨?_, fun k hk => ?_⟩
      · simp only [AdminApp.unpause, honchain, hviews, heligible, okOr, bind, Except.bind]
        rfl
      · obtain ⟨a, -, -, hv, hactive⟩ := hrow k hk
        exact absurd hactive (List.filter_eq_nil_iff.1 heligible _ hv)
    | cons v rest =>
      have hv : v ∈ views.filter fun g => g.active := heligible ▸ List.mem_cons_self
      obtain ⟨hv, hactive⟩ := List.mem_filter.1 hv
      obtain ⟨g, hg, rfl⟩ := (hmem v).1 hv
      refine .inr ⟨g, ?_, hg, ⟨g, hg, hactive⟩, ?_⟩
      · simp only [AdminApp.unpause, honchain, hviews, heligible, okOr, bind, Except.bind]
        rw [readinessBytes_eq]
        rfl
      · intro g' hg' hmay
        obtain ⟨a, -, ha, hv', hactive'⟩ := hrow _ hmay
        obtain rfl : a = g' := Option.some.inj (ha.symm.trans hg')
        exact head_filter_newest hsorted heligible _ hv' hactive'

/-- The console refuses where a double does not hold a scheduled removal, and where no guardian is
eligible, so that the program would refuse too what its admin signs, and anything if the admin could
be read. Else it presents the newest eligible guardian, and in any later state what it built goes
through exactly when its admin is the admin, that guardian may still act, and no field that was
digested has moved. -/
theorem console_unpause [BnJs] (h : Reachable rt w₀) (run : Run rt w₀ es w)
    (hash : rt.hash w.config.readinessBytes = rt.hash w₀.config.readinessBytes →
      w.config.readinessBytes = w₀.config.readinessBytes)
    (hrows : Lists rows w₀.guardians.lookup) (hnow : Safe nowSecs)
    (hread : ∀ a, fetchedAdmin = some a → a = w₀.config.admin) :
    (AdminApp.unpause rt w₀.config rows admin fetchedAdmin nowSecs = .error .unsafeNumber ↔
      ∃ k g, w₀.guardians.lookup k = some g ∧ ¬ Safe g.pendingRemovalAt) ∧
    (AdminApp.unpause rt w₀.config rows admin fetchedAdmin nowSecs = .error .noEligibleGuardian →
      ∀ c digest k, c.ix = .unpause digest k → fetchedAdmin.isSome ∨ c.signer = admin →
        ∀ w', exec rt c w₀ ≠ .ok w') ∧
    ∀ m, AdminApp.unpause rt w₀.config rows admin fetchedAdmin nowSecs = .ok m →
      ∃ g, w₀.guardians.lookup g.guardian = some g ∧
        Eligible w₀ (fetchedAdmin.getD admin) g.guardian ∧
        (∀ g', w₀.guardians.lookup g'.guardian = some g' →
          Eligible w₀ (fetchedAdmin.getD admin) g'.guardian → g'.addedAt ≤ g.addedAt) ∧
        ∀ now hnow, (∃ w', m.exec rt now hnow w = .ok w') ↔ rt.canSign admin = true ∧
          w.config.admin = admin ∧ MayAct w g.guardian ∧ SameReadiness w₀.config w.config := by
  rcases @unpause_cases rt _ _ _ _ _ _ h hrows hnow with
    ⟨hbuilt, hbad⟩ | ⟨hsafe, ⟨hbuilt, hnobody⟩ | ⟨g, hbuilt, hg, hmay, hnewest⟩⟩
  all_goals rw [hbuilt]
  · refine ⟨iff_of_true rfl hbad, ?_, ?_⟩
    · intro h
      cases h
    · intro m h
      cases h
  · refine ⟨iff_of_false (by simp) ?_, ?_, ?_⟩
    · rintro ⟨k, g, hk, hbad⟩
      exact hbad (hsafe k g hk)
    · intro _ c digest k hix hsigner w' hok
      obtain ⟨-, hsigned, hmay, -⟩ := (unpause_accepted_iff (guardianCount_pos h) hix).1 ⟨w', hok⟩
      -- what the console takes for the admin is the admin, or else did not sign
      have honchain : fetchedAdmin.getD admin = w₀.config.admin := by
        cases hf : fetchedAdmin with
        | some a => exact hread a hf
        | none =>
          have hadmin := hsigner.resolve_left (by simp [hf])
          exact hadmin.symm.trans hsigned.symm
      exact hnobody k (by rw [honchain]; exact hmay)
    · intro m h
      cases h
  · refine ⟨iff_of_false (by simp) ?_, ?_, ?_⟩
    · rintro ⟨k, g, hk, hbad⟩
      exact hbad (hsafe k g hk)
    · intro h
      cases h
    · intro m hm
      obtain rfl := Except.ok.inj hm
      refine ⟨g, hg, hmay, hnewest, fun now hnow => ?_⟩
      have hready : rt.hash w.config.readinessBytes = rt.hash w₀.config.readinessBytes ↔
          SameReadiness w₀.config w.config :=
        ⟨fun h => readinessBytes_eq_iff.1 (hash h), fun h => by rw [readinessBytes_eq_iff.2 h]⟩
      have haccepted := @unpause_accepted_iff rt w g.guardian (guardianCount_pos (h.append run))
        ⟨now, hnow, admin, .unpause (rt.hash w₀.config.readinessBytes) g.guardian⟩ _ rfl
      rw [hready] at haccepted
      rw [← haccepted]
      by_cases hs : rt.canSign admin = true
      · simp [Message.exec, exec, constrain, guardOr, hs, bind, Except.bind]
      · simp [Message.exec, exec, constrain, guardOr, hs, bind, Except.bind]

/-- Built when nothing was queued, and carried out after a new treasury float was. -/
theorem console_unpause_floatCalls :
    ∃ m, AdminApp.unpause Reference.runtime Reference.start.config [firstGuardian] Reference.admin
        (some Reference.admin) 2000 = .ok m ∧
      ∃ w', m.exec Reference.runtime 89401 (by decide)
        (Reference.final Reference.runtime Reference.start Reference.floatCalls) = .ok w' := by
  have hrun : Run Reference.runtime Reference.start
      (Reference.entries Reference.runtime Reference.start Reference.floatCalls)
      (Reference.final Reference.runtime Reference.start Reference.floatCalls) :=
    Reference.run_of_succeeds (by decide +kernel)
  have hsame : (Reference.final Reference.runtime Reference.start
      Reference.floatCalls).config.readinessBytes = Reference.start.config.readinessBytes := by
    decide +kernel
  have hguardian : (Reference.final Reference.runtime Reference.start
      Reference.floatCalls).guardians.lookup Reference.guardian = some firstGuardian := by
    decide +kernel
  have hadmin : (Reference.final Reference.runtime Reference.start
      Reference.floatCalls).config.admin = Reference.admin := by
    decide +kernel
  have hopens : ∃ w', exec Reference.runtime Reference.unpauseCall Reference.start = .ok w' := by
    have hok : (exec Reference.runtime Reference.unpauseCall Reference.start).isOk = true := by
      decide +kernel
    cases hr : exec Reference.runtime Reference.unpauseCall Reference.start with
    | ok w' => exact ⟨w', rfl⟩
    | error e => rw [hr] at hok; cases hok
  generalize Reference.final Reference.runtime Reference.start Reference.floatCalls = w
    at hrun hsame hguardian hadmin ⊢
  obtain ⟨hbad, hrefused, hbuilt⟩ := @console_unpause _ _ w _ [firstGuardian] Reference.admin
    (some Reference.admin) 2000 _
    (@Reference.reachable_final [] rfl : Reachable Reference.runtime Reference.start) hrun
    (fun _ => hsame) lists_start (by decide) fun a ha => (Option.some.inj ha).symm
  have honly : ∀ k g, Reference.start.guardians.lookup k = some g → g = firstGuardian :=
    fun k g hk => List.mem_singleton.1 ((lists_start g).2 ⟨k, hk⟩)
  cases hm : AdminApp.unpause Reference.runtime Reference.start.config [firstGuardian]
      Reference.admin (some Reference.admin) 2000 with
  | error e =>
    cases e with
    | unsafeNumber =>
      obtain ⟨k, g, hk, hbad⟩ := hbad.1 hm
      rw [honly k g hk] at hbad
      exact absurd (by decide) hbad
    | noEligibleGuardian =>
      obtain ⟨w', hok⟩ := hopens
      exact absurd hok (hrefused hm _ _ _ rfl (.inl rfl) w')
  | ok m =>
    obtain ⟨g, hg, -, -, haccepted⟩ := hbuilt m hm
    obtain rfl := honly _ g hg
    refine ⟨m, rfl, (haccepted 89401 (by decide)).2 ⟨rfl, hadmin, ⟨_, hguardian, ?_⟩,
      readinessBytes_eq_iff.1 hsame⟩⟩
    rw [hadmin]
    decide

end Unpause

end DominionSilver
