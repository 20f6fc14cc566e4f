import DominionSilver.Sanity.Emitted
import DominionSilver.Sanity.Reference
import DominionSilver.Sanity.Roles

/-! The rosters of the program, read off its events: the seats of the guardians,
the fee exemptions and the attestations. The latter two are replayed account by
account, with every field. -/

namespace DominionSilver

open Checked Bytes Tokens Journal

/-- What the events tell of a guardian. -/
structure Seat where
  cooldownUntil : ℤ
  pendingRemovalAt : ℤ
deriving DecidableEq

structure Rosters where
  guardians : Pubkey → Option Seat
  feeExempts : Accounts Pubkey FeeExemptAccount
  kycs : Accounts Pubkey KycAccount
  kycScopeFlags : UInt8

def GuardianAccount.seat (g : GuardianAccount) : Seat := ⟨g.cooldownUntil, g.pendingRemovalAt⟩

def World.rosters (w : World) : Rosters where
  guardians k := (w.guardians.lookup k).map (·.seat)
  feeExempts := w.feeExempts
  kycs := w.kycs
  kycScopeFlags := w.config.kycScopeFlags

namespace Rosters

def seat (q : Rosters) (k : Pubkey) (s : Seat) : Rosters :=
  { q with guardians := Function.update q.guardians k (some s) }

/-- When a guardian's removal is due; zero where none is scheduled. -/
def removalAt (q : Rosters) (k : Pubkey) : ℤ := ((q.guardians k).map (·.pendingRemovalAt)).getD 0

def cooldown (q : Rosters) (k : Pubkey) : ℤ := ((q.guardians k).map (·.cooldownUntil)).getD 0

/-- An exemption that is renewed keeps the time it was first granted. -/
def grantedAt (q : Rosters) (wallet : Pubkey) (timestamp : ℤ) : ℤ :=
  match q.feeExempts.lookup wallet with
  | some acc => if acc.addedAt = 0 then timestamp else acc.addedAt
  | none => timestamp

def read (q : Rosters) : ProgramEvent → Rosters
  | .guardianAdded k => q.seat k ⟨0, 0⟩
  | .guardianRemovalScheduled k effectiveAt => q.seat k ⟨0, effectiveAt⟩
  | .guardianRemoved k cooldownUntil => q.seat k ⟨cooldownUntil, 0⟩
  | .guardianRemovalCancelled k _ => q.seat k ⟨q.cooldown k, 0⟩
  | .feeExemptSet wallet flags expiresAt by_ timestamp =>
      { q with
        feeExempts := q.feeExempts.insert wallet
          ⟨wallet, flags, q.grantedAt wallet timestamp, by_, expiresAt⟩ }
  | .feeExemptRemoved wallet _ _ _ => { q with feeExempts := q.feeExempts.erase wallet }
  | .kycAttested wallet attestor reference timestamp =>
      { q with
        kycs := q.kycs.insert wallet
          ⟨wallet, timestamp, attestor, reference, KYC_ACCOUNT_VERSION⟩ }
  | .kycRevoked wallet _ _ => { q with kycs := q.kycs.erase wallet }
  | .kycScopeChanged _ new _ _ => { q with kycScopeFlags := new }
  | _ => q

/-- Behind an armed gate only those on the roster trade. -/
def Admits (q : Rosters) (side : Side) (user : Pubkey) : Prop :=
  side.isSetIn q.kycScopeFlags = true → ∃ acc, q.kycs.lookup user = some acc ∧ acc.wallet = user

/-- A removal is scheduled for a guardian that may act and carried out once it is due, only what
is scheduled is cancelled, and only what is there is taken away. -/
def Agrees (q : Rosters) : ProgramEvent → Prop
  | .mintEvent user .. => q.Admits .mint user
  | .redeemEvent user .. => q.Admits .redeem user
  | .guardianAdded k => q.removalAt k = 0
  | .guardianRemovalScheduled k _ => ∃ s, q.guardians k = some s ∧ s.cooldownUntil = 0
  | .guardianRemoved k cooldownUntil => ∃ s, q.guardians k = some s ∧ s.cooldownUntil = 0 ∧
      s.pendingRemovalAt ≠ 0 ∧
      s.pendingRemovalAt + GUARDIAN_REMOVE_COOLDOWN_SECONDS ≤ cooldownUntil
  | .guardianRemovalCancelled k _ => ∃ s, q.guardians k = some s ∧ s.pendingRemovalAt ≠ 0
  | .feeExemptSet _ flags expiresAt _ timestamp =>
      sideFlagsValidNonempty flags = true ∧ timestamp < expiresAt
  | .feeExemptRemoved wallet previousFlags _ _ =>
      ∃ acc, q.feeExempts.lookup wallet = some acc ∧ acc.flags = previousFlags
  | .kycRevoked wallet _ _ => ∃ acc, q.kycs.lookup wallet = some acc
  | _ => True

def monitor : Monitor Rosters ProgramEvent := ⟨read, Agrees⟩

theorem ignores_notice {e : ProgramEvent} (h : e.IsNotice) : monitor.Ignores e := by
  intro q
  cases e with
  | paused | redemptionsEnabledChanged | complianceModeChanged | metadataUpdated
  | publicMintEnabledChanged | inventoryWalletChanged => exact ⟨rfl, trivial⟩
  | _ => exact h.elim

end Rosters

section Steps

variable {rt : Runtime} {now : ℤ} {signer : Pubkey} {ix : Instruction} {w w' : World}

theorem rosters_seat {k : Pubkey} {g : GuardianAccount} {c : ConfigAccount}
    (hc : c.kycScopeFlags = w.config.kycScopeFlags) :
    w.rosters.seat k g.seat =
      { w with guardians := w.guardians.insert k g, config := c }.rosters := by
  unfold Rosters.seat World.rosters
  rw [Rosters.mk.injEq]
  refine ⟨?_, rfl, rfl, hc.symm⟩
  funext j
  simp only [Function.update_apply]
  split_ifs with hj
  · rw [hj, Finmap.lookup_insert]; rfl
  · rw [Finmap.lookup_insert_of_ne _ hj]

theorem rosters_guardian {k : Pubkey} {g : GuardianAccount} (h : w.guardians.lookup k = some g) :
    w.rosters.guardians k = some g.seat := by
  simp only [World.rosters, h, Option.map_some]

theorem admits_of_enforceKyc {side : Side} {user : Pubkey} {supplies : Bool}
    (h : ∃ kyc, optionalAccount supplies (w.kycs.lookup user) = .ok kyc ∧
      enforceKyc w.config.kycScopeFlags side kyc user = .ok ()) : w.rosters.Admits side user := by
  obtain ⟨kyc, hkyc, henforce⟩ := h
  intro harmed
  have harmed : side.isSetIn w.config.kycScopeFlags = true := harmed
  unfold enforceKyc at henforce
  rw [if_pos harmed] at henforce
  cases kyc with
  | none => cases henforce
  | some acc =>
    refine ⟨acc, optionalAccount_some hkyc, ?_⟩
    exact of_decide_eq_true (require_ok.1 henforce)

theorem takes_rosters (h : Effect rt now signer w ix w') :
    ∃ events, emitted rt now signer w w' ix = .ok events ∧
      Rosters.monitor.Takes w.rosters events w'.rosters := by
  cases h with
  | mintSilv minted =>
    obtain ⟨bps, he⟩ := minted.events
    exact ⟨_, he, .one (admits_of_enforceKyc minted.kyc) rfl⟩
  | redeemSilv redeemed =>
    obtain ⟨bps, he⟩ := redeemed.events
    exact ⟨_, he, .one (admits_of_enforceKyc redeemed.kyc) rfl⟩
  | depositUsdc found _ _ _ moved post credited =>
    exact ⟨_, depositEvents_ok found moved post credited, .one trivial rfl⟩
  | @setFeeExempt wallet flags expiresAt addedAt _ flags_ok future _ added =>
    refine ⟨_, rfl, .one ⟨flags_ok, future⟩ ?_⟩
    have hgranted : w.rosters.grantedAt wallet now = addedAt := by
      rw [added]
      unfold Rosters.grantedAt exemptionAt
      change (match w.feeExempts.lookup wallet with
        | some acc => if acc.addedAt = 0 then now else acc.addedAt
        | none => now) = _
      cases w.feeExempts.lookup wallet with
      | none => rfl
      | some acc => rfl
    change w.rosters.read (.feeExemptSet _ _ _ _ _) = _
    simp only [Rosters.read, hgranted]
    rfl
  | removeFeeExempt _ found =>
    exact ⟨_, removeFeeExemptEvents_ok found, .one ⟨_, found, rfl⟩ rfl⟩
  | withdrawFees _ swept =>
    obtain ⟨owner, remaining, -, he⟩ := @Swept.events _ now _ _ _ _ signer swept
    exact ⟨_, he, .one trivial rfl⟩
  | revokeKyc _ found _ resolved =>
    rcases @revokeKycEvents_ok _ now _ _ _ _ resolved with ⟨hs, he⟩ | ⟨-, -, he⟩
    · refine ⟨_, he, .one ⟨_, found⟩ ?_⟩
      change w.rosters.read (.kycRevoked _ signer now) = _
      simp only [Rosters.read, World.rosters, hs]
    · exact ⟨_, he, .cons trivial (.one ⟨_, found⟩ rfl)⟩
  | emergencyTightenRedeemLimits =>
    refine ⟨_, rfl, .append _ (Monitor.takes_ignored ?_) (.one trivial rfl)⟩
    exact fun e he => Rosters.ignores_notice (isNotice_redemptionsSwitch e he)
  | adminPremint _ _ _ _ _ _ _ _ post => exact ⟨_, premintEvents_ok post, .one trivial rfl⟩
  | @addGuardian k _ _ _ _ _ _ unscheduled =>
    have hseat : (⟨0, 0⟩ : Seat) = { guardianAt w k with
        guardian := k, addedAt := now, cooldownUntil := 0, selfCancelUsed := false }.seat := by
      rw [GuardianAccount.seat, unscheduled]
    refine ⟨_, rfl, .one ?_ ?_⟩
    · change w.rosters.removalAt k = 0
      rw [← unscheduled]
      simp only [Rosters.removalAt, guardianAt, World.rosters]
      cases w.guardians.lookup k <;> rfl
    · change w.rosters.seat k ⟨0, 0⟩ = _
      rw [hseat]
      exact rosters_seat rfl
  | @removeGuardian k g effectiveAt _ _ found _ active =>
    refine ⟨_, guardianEvents_ok (Finmap.lookup_insert _),
      .one ⟨g.seat, rosters_guardian found, active⟩ ?_⟩
    have hseat : (⟨0, effectiveAt⟩ : Seat) = { g with pendingRemovalAt := effectiveAt }.seat := by
      rw [GuardianAccount.seat, active]
    change w.rosters.seat k ⟨0, effectiveAt⟩ = _
    rw [hseat]
    exact rosters_seat rfl
  | @finalizeGuardianRemoval k g _ _ _ found _ active scheduled due _ _ cooldown =>
    refine ⟨_, guardianEvents_ok (Finmap.lookup_insert _),
      .one ⟨g.seat, rosters_guardian found, active, scheduled, ?_⟩ ?_⟩
    · rw [cooldown]
      exact Int.add_le_add_right due _
    · exact rosters_seat rfl
  | @cancelGuardianRemoval k g selfCancelUsed _ found _ scheduled =>
    refine ⟨_, rfl, .one ⟨g.seat, rosters_guardian found, scheduled⟩ ?_⟩
    have hseat : (⟨w.rosters.cooldown k, 0⟩ : Seat) =
        { g with selfCancelUsed, pendingRemovalAt := 0 }.seat := by
      rw [Rosters.cooldown, rosters_guardian found]
      rfl
    change w.rosters.seat k ⟨w.rosters.cooldown k, 0⟩ = _
    rw [hseat]
    exact rosters_seat rfl
  | propose queued =>
    refine ⟨_, proposeEvents_ok queued rfl, .cons trivial ?_⟩
    split_ifs
    · exact .one trivial rfl
    · exact Monitor.takes_nil.2 rfl
  | @execute k nonce _ ata tl change w₁ timelock decoded kind applied =>
    refine ⟨_, executeEvents_ok timelock decoded, takes_change (fun e => Rosters.ignores_notice)
      (.one trivial ?_) fun _ _ _ _ => ⟨rfl, trivial⟩⟩
    cases applied <;> rfl
  | _ => exact ⟨_, rfl, .one trivial rfl⟩

theorem rosters_step {e : Event} (h : Step rt w e w') :
    Rosters.monitor.Takes w.rosters (eventsAt rt ⟨w, e, w'⟩) w'.rosters := by
  rcases step_cases h with ⟨c, rfl, -, he⟩ | ⟨rfl, he⟩
  · obtain ⟨events, hemit, htakes⟩ := takes_rosters he
    rwa [eventsAt_call hemit]
  · refine Monitor.takes_nil.2 ?_
    unfold World.rosters
    rw [he.guardians, he.feeExempts, he.kycs, he.config]

end Steps

/-- Over every run the events replay to the rosters of its last state, and each event is true of
the rosters that the ones before it replay to. -/
theorem rosters_replay {rt : Runtime} {w₀ w : World} {es : List Entry} (run : Run rt w₀ es w) :
    Rosters.monitor.replay w₀.rosters (journal (eventsAt rt) es) = w.rosters ∧
    ∀ before event after, journal (eventsAt rt) es = before ++ event :: after →
      (Rosters.monitor.replay w₀.rosters before).Agrees event := by
  have htakes : Rosters.monitor.Takes w₀.rosters (journal (eventsAt rt) es) w.rosters :=
    follows_of_run (I := fun _ => True) (v := World.rosters) trivial (fun _ _ => trivial)
      (fun _ hs => rosters_step hs) run
  exact htakes

/-- An exemption and an attestor, one wallet attested twice and taken off again. -/
def rosterEventCalls : List Call :=
  [Reference.callAt 3000 Reference.admin (.setFeeExempt Reference.user 1 4000),
    Reference.callAt 3001 Reference.admin (.setKycOperator (Reference.key 10)),
    Reference.callAt 3002 (Reference.key 10) (.attestKyc Reference.user Bytes32.zero),
    Reference.callAt 3003 Reference.admin (.setFeeExempt Reference.user 3 5000),
    Reference.callAt 3004 (Reference.key 10) (.revokeKyc Reference.user false)]

theorem rosters_replay_rosterEventCalls :
    Rosters.monitor.replay Reference.start.rosters (journal (eventsAt Reference.runtime)
        (Reference.entries Reference.runtime Reference.start rosterEventCalls)) =
      (Reference.final Reference.runtime Reference.start rosterEventCalls).rosters :=
  (rosters_replay (Reference.run_of_succeeds (by decide +kernel))).1

end DominionSilver
