import DominionSilver.Proofs.Repricing
import DominionSilver.Sanity.Emitted

/-! The timelock queue, read off its events. A proposal of a kind that no instant
switch disarms keeps its slot for as long as it is live, so at most one of such
a kind is; and whoever replays the events knows which proposals are live, when
each is due, and until when public mints are held back. -/

namespace DominionSilver

open Checked Bytes Tokens Journal

section Slots

/-- Live proposals hold the slots of their kinds, those of the two kinds with an instant switch
apart. -/
def SlotsHeld (w : World) : Prop :=
  ∀ n tl k, w.timelocks.lookup n = some tl → tl.actionDisc = k.disc → k ≠ .setPublicMint →
    k ≠ .setRedeemLimits → w.config.pendingNonce k = some n

variable {rt : Runtime} {now : ℤ} {signer : Pubkey} {ix : Instruction} {w w' : World} {e : Event}

theorem SlotsHeld.congr (hw : SlotsHeld w) (ht : w'.timelocks = w.timelocks)
    (hs : ∀ k, k ≠ .setPublicMint → k ≠ .setRedeemLimits →
      w'.config.pendingNonce k = w.config.pendingNonce k) : SlotsHeld w' := by
  intro n tl k hl hd hp hr
  rw [hs k hp hr]
  exact hw n tl k (ht ▸ hl) hd hp hr

theorem SlotsHeld.close {n : UInt64} (hw : SlotsHeld w)
    (ht : w'.timelocks = w.timelocks.erase n)
    (hs : ∀ k m, m ≠ n → w.config.pendingNonce k = some m → w'.config.pendingNonce k = some m) :
    SlotsHeld w' := by
  intro m tl k hl hd hp hr
  obtain ⟨hm, hl⟩ := Accounts.lookup_of_erase (ht ▸ hl)
  exact hs k m hm (hw m tl k hl hd hp hr)

theorem SlotsHeld.effect (hw : SlotsHeld w) (h : Effect rt now signer w ix w') :
    SlotsHeld w' := by
  cases h with
  | @propose change data executableAt nextNonce _ _ queued =>
    intro n tl k hl hd hp hr
    rcases Accounts.lookup_insert_cases hl with ⟨rfl, rfl⟩ | ⟨-, hl⟩
    · obtain rfl := TimelockAction.disc_injective hd
      exact Function.update_self _ _ _
    · have hheld := hw n tl k hl hd hp hr
      have hne : k ≠ change.kind := by
        rintro rfl
        rw [queued.free] at hheld
        cases hheld
      exact (Function.update_of_ne hne _ _).trans hheld
  | @execute j m _ _ _ _ w₁ timelock _ _ applied =>
    obtain ⟨ht, hp, -, -⟩ := queue_of_applied applied
    refine hw.close (by rw [closeTimelock, ht]) ?_
    intro k n hn hk
    have hj : k ≠ j := by
      rintro rfl
      exact hn (Option.some.inj (hk.symm.trans timelock.armed))
    simp only [closeTimelock, hp]
    exact (Function.update_of_ne hj _ _).trans hk
  | cancelTimelockedAction _ _ _ _ _ _ slots =>
    refine hw.close rfl ?_
    intro k n hn hk
    subst slots
    exact slot_of_cancel hn.symm hk
  | setPublicMintEnabled => exact hw.congr rfl fun _ hp _ => Function.update_of_ne hp _ _
  | setRedemptionsEnabled => exact hw.congr rfl fun _ _ hr => Function.update_of_ne hr _ _
  | emergencyTightenRedeemLimits _ _ _ _ _ slots =>
    refine hw.congr rfl fun k _ hr => ?_
    subst slots
    simp only
    split_ifs
    · exact Function.update_of_ne hr _ _
    · rfl
  | _ => exact hw

theorem slotsHeld_initial (h : Initialized rt now w) : SlotsHeld w := by
  obtain ⟨args, g, t, m, d⟩ := deployed_of_initialized h
  obtain ⟨usdc, -, rfl⟩ := d.state
  intro n tl k hl
  simp at hl

theorem SlotsHeld.step (hw : SlotsHeld w) (h : Step rt w e w') : SlotsHeld w' := by
  rcases step_cases h with ⟨c, -, -, he⟩ | ⟨-, he⟩
  · exact hw.effect he
  · exact hw.congr he.timelocks fun _ _ _ => by rw [he.config]

end Slots

/-- What the events tell of a live proposal. -/
structure Queueing where
  actionDisc : UInt8
  executableAt : ℤ
  proposer : Pubkey
deriving DecidableEq

/-- The queue as an observer keeps it. -/
structure Backlog where
  live : UInt64 → Option Queueing
  count : ℕ
  nextNonce : UInt64
  mintPausedUntil : ℤ

def TimelockQueueAccount.queueing (tl : TimelockQueueAccount) : Queueing :=
  ⟨tl.actionDisc, tl.executableAt, tl.proposer⟩

def World.backlog (w : World) : Backlog where
  live n := (w.timelocks.lookup n).map (·.queueing)
  count := w.config.activeProposalCount.toNat
  nextNonce := w.config.nextTimelockNonce
  mintPausedUntil := w.config.mintPausedUntil

namespace Backlog

/-- The account of `n` is closed, and with it the mint pause that a new mint premium brought. -/
def close (q : Backlog) (n : UInt64) (actionDisc : UInt8) : Backlog :=
  { q with
    live := Function.update q.live n none
    count := q.count - 1
    mintPausedUntil :=
      if actionDisc = TimelockAction.setPremiumMint.disc then 0 else q.mintPausedUntil }

def read (q : Backlog) : ProgramEvent → Backlog
  | .adminActionProposed nonce actionDisc executableAt proposer =>
      { q with
        live := Function.update q.live nonce (some ⟨actionDisc, executableAt, proposer⟩)
        count := q.count + 1
        nextNonce := nonce + 1 }
  | .mintPausedUntilSet t => { q with mintPausedUntil := t }
  | .adminActionExecuted nonce actionDisc _ => q.close nonce actionDisc
  | .adminActionCancelled nonce _ => q.close nonce (((q.live nonce).map (·.actionDisc)).getD 0)
  | _ => q

/-- A proposal takes the next nonce, in a queue with room, and is the only one of its kind where no
instant switch disarms it. What is executed or cancelled is live, and what is executed is of the
kind it was proposed as. Nobody mints while a new mint premium is queued. -/
def Agrees (q : Backlog) : ProgramEvent → Prop
  | .adminActionProposed nonce actionDisc _ _ =>
      nonce = q.nextNonce ∧ q.live nonce = none ∧ q.count < 10 ∧
        ∀ k : TimelockAction, actionDisc = k.disc → k ≠ .setPublicMint → k ≠ .setRedeemLimits →
          ∀ n p, q.live n = some p → p.actionDisc ≠ actionDisc
  | .mintPausedUntilSet t => ∃ n p, q.live n = some p ∧ p.executableAt = t ∧
      p.actionDisc = TimelockAction.setPremiumMint.disc
  | .adminActionExecuted nonce actionDisc _ =>
      ∃ p, q.live nonce = some p ∧ p.actionDisc = actionDisc
  | .adminActionCancelled nonce _ => q.live nonce ≠ none
  | .mintEvent _ _ _ _ _ _ timestamp => q.mintPausedUntil ≤ timestamp ∧
      ∀ n p, q.live n = some p → p.actionDisc ≠ TimelockAction.setPremiumMint.disc
  | _ => True

def monitor : Monitor Backlog ProgramEvent := ⟨read, Agrees⟩

theorem ignores_notice {e : ProgramEvent} (h : e.IsNotice) : monitor.Ignores e := by
  intro q
  cases e with
  | paused | redemptionsEnabledChanged | complianceModeChanged | metadataUpdated
  | publicMintEnabledChanged | inventoryWalletChanged => exact ⟨rfl, trivial⟩
  | _ => exact h.elim

end Backlog

section Steps

variable {rt : Runtime} {now : ℤ} {signer : Pubkey} {ix : Instruction} {w w' : World}

theorem backlog_live {n : UInt64} {p : Queueing} :
    w.backlog.live n = some p ↔ ∃ tl, w.timelocks.lookup n = some tl ∧ tl.queueing = p :=
  Option.map_eq_some_iff

theorem backlog_close {n : UInt64} {disc : UInt8} (ht : w'.timelocks = w.timelocks.erase n)
    (hc : w'.config.activeProposalCount = saturatingSub w.config.activeProposalCount 1)
    (hn : w'.config.nextTimelockNonce = w.config.nextTimelockNonce)
    (hm : w'.config.mintPausedUntil =
      if disc = TimelockAction.setPremiumMint.disc then 0 else w.config.mintPausedUntil) :
    w.backlog.close n disc = w'.backlog := by
  have hsub := toNat_saturatingSub w.config.activeProposalCount 1
  simp only [word_uint8, UInt8.toNat_one] at hsub
  unfold Backlog.close World.backlog
  rw [Backlog.mk.injEq, hc, hn, hm, hsub]
  refine ⟨?_, rfl, rfl, rfl⟩
  funext m
  simp only [Function.update_apply, ht]
  split_ifs with hmn
  · rw [hmn, Finmap.lookup_erase]; rfl
  · rw [Finmap.lookup_erase_ne hmn]

theorem SlotsHeld.none_live {k : TimelockAction} (hw : SlotsHeld w)
    (hk : w.config.pendingNonce k = none) (hp : k ≠ .setPublicMint) (hr : k ≠ .setRedeemLimits)
    {n : UInt64} {p : Queueing} (h : w.backlog.live n = some p) : p.actionDisc ≠ k.disc := by
  obtain ⟨tl, hl, rfl⟩ := backlog_live.1 h
  intro hd
  have hheld := hw n tl k hl hd hp hr
  rw [hk] at hheld
  cases hheld

theorem takes_propose {change : Change} {data : List UInt8} {executableAt mintPausedUntil : ℤ}
    {nextNonce : UInt64} {count : UInt8} (hw : SlotsHeld w)
    (queued : Queued change now signer w data executableAt nextNonce count)
    (repricing : mintPausedUntil = if change.kind = .setPremiumMint then executableAt
      else w.config.mintPausedUntil)
    (ht : w'.timelocks = w.timelocks.insert w.config.nextTimelockNonce
      (queuedAccount change now signer w data executableAt))
    (hc : w'.config.activeProposalCount = count) (hn : w'.config.nextTimelockNonce = nextNonce)
    (hm : w'.config.mintPausedUntil = mintPausedUntil) :
    Backlog.monitor.Takes w.backlog (proposedEvents change executableAt signer w) w'.backlog := by
  have hfresh : w.backlog.live w.config.nextTimelockNonce = none := by
    simp only [World.backlog, queued.unused, Option.map_none]
  have hnext : w.config.nextTimelockNonce + 1 = nextNonce := by
    have hlt := nextNonce.toNat_lt
    rw [queued.nextNonce] at hlt
    rw [← UInt64.toNat_inj, queued.nextNonce, UInt64.toNat_add]
    exact Nat.mod_eq_of_lt hlt
  refine .cons ⟨rfl, hfresh, UInt8.lt_iff_toNat_lt.1 queued.room, ?_⟩ ?_
  · intro k hd hp hr n p hl
    rw [hd]
    obtain rfl := TimelockAction.disc_injective hd
    exact hw.none_live queued.free hp hr hl
  · have hread : { w'.backlog with mintPausedUntil := w.config.mintPausedUntil } =
        w.backlog.read (.adminActionProposed w.config.nextTimelockNonce change.kind.disc
          executableAt signer) := by
      unfold Backlog.read World.backlog
      rw [Backlog.mk.injEq, hc, hn, hnext, queued.count]
      refine ⟨?_, rfl, rfl, rfl⟩
      funext m
      simp only [Function.update_apply, ht]
      split_ifs with hmn
      · rw [hmn, Finmap.lookup_insert]; rfl
      · rw [Finmap.lookup_insert_of_ne _ hmn]
    change Backlog.monitor.Takes (w.backlog.read (.adminActionProposed _ _ _ _)) _ _
    rw [← hread]
    have hpaused : w'.backlog.mintPausedUntil = mintPausedUntil := hm
    by_cases hk : change.kind = .setPremiumMint
    · rw [if_pos hk] at repricing ⊢
      refine .one ⟨w.config.nextTimelockNonce, ⟨change.kind.disc, executableAt, signer⟩, ?_, rfl,
        congrArg TimelockAction.disc hk⟩ ?_
      · simp only [World.backlog, ht, Finmap.lookup_insert, Option.map_some]
        rfl
      · rw [← repricing, ← hpaused]
        rfl
    · rw [if_neg hk] at repricing ⊢
      refine Monitor.takes_nil.2 ?_
      rw [← repricing, ← hpaused]

theorem takes_backlog (hq : QueueSound w) (hw : SlotsHeld w)
    (h : Effect rt now signer w ix w') :
    ∃ events, emitted rt now signer w w' ix = .ok events ∧
      Backlog.monitor.Takes w.backlog events w'.backlog := by
  cases h with
  | mintSilv minted =>
    obtain ⟨bps, he⟩ := minted.events
    refine ⟨_, he, .one ⟨minted.resumed, fun n p hl => ?_⟩ rfl⟩
    exact hw.none_live minted.noRepricing (by decide) (by decide) hl
  | redeemSilv redeemed =>
    obtain ⟨bps, he⟩ := redeemed.events
    exact ⟨_, he, .one trivial rfl⟩
  | depositUsdc found _ _ _ moved post credited =>
    exact ⟨_, depositEvents_ok found moved post credited, .one trivial rfl⟩
  | removeFeeExempt _ found => exact ⟨_, removeFeeExemptEvents_ok found, .one trivial rfl⟩
  | withdrawFees _ swept =>
    obtain ⟨owner, remaining, -, he⟩ := @Swept.events _ now _ _ _ _ signer swept
    exact ⟨_, he, .one trivial rfl⟩
  | revokeKyc _ _ _ resolved =>
    rcases @revokeKycEvents_ok _ now _ _ _ _ resolved with ⟨-, he⟩ | ⟨-, -, he⟩
    · exact ⟨_, he, .one trivial rfl⟩
    · exact ⟨_, he, .cons trivial (.one trivial rfl)⟩
  | emergencyTightenRedeemLimits =>
    refine ⟨_, rfl, .append _ (Monitor.takes_ignored ?_) (.one trivial rfl)⟩
    exact fun e he => Backlog.ignores_notice (isNotice_redemptionsSwitch e he)
  | adminPremint _ _ _ _ _ _ _ _ post => exact ⟨_, premintEvents_ok post, .one trivial rfl⟩
  | removeGuardian | finalizeGuardianRemoval =>
    exact ⟨_, guardianEvents_ok (Finmap.lookup_insert _), .one (by trivial) rfl⟩
  | propose queued repricing =>
    exact ⟨_, proposeEvents_ok queued rfl, takes_propose hw queued repricing rfl rfl rfl rfl⟩
  | @execute k nonce _ ata tl change w₁ timelock decoded kind applied =>
    obtain ⟨ht, -, hn, hc⟩ := queue_of_applied applied
    refine ⟨_, executeEvents_ok timelock decoded, takes_change (fun e => Backlog.ignores_notice)
      (.one ⟨tl.queueing, backlog_live.2 ⟨tl, timelock.found, rfl⟩, ?_⟩ ?_)
        fun _ _ _ _ => ⟨rfl, trivial⟩⟩
    · rw [kind]; exact timelock.disc
    · refine backlog_close (by rw [closeTimelock, ht]) (by rw [closeTimelock, hc]) hn ?_
      split_ifs with hd
      · have hk : change.kind = .setPremiumMint := TimelockAction.disc_injective hd
        cases applied with
        | premiumMint => rfl
        | _ => cases hk
      · have hkept := mintPausedUntil_of_applied applied fun hk => hd (congrArg _ hk)
        exact hkept
  | @cancelTimelockedAction nonce _ _ tl _ mintPausedUntil found _ _ _ _ _ _ resumed =>
    obtain ⟨change, -, hd, -, -⟩ := hq.queued _ _ found
    have hlive := backlog_live.2 ⟨tl, found, rfl⟩
    refine ⟨_, rfl, .one (fun h => by rw [hlive] at h; cases h) ?_⟩
    change w.backlog.close nonce (((w.backlog.live nonce).map (·.actionDisc)).getD 0) = _
    rw [hlive]
    refine backlog_close rfl rfl rfl ?_
    change mintPausedUntil = _
    by_cases hk : tl.actionDisc = TimelockAction.setPremiumMint.disc
    · have hheld := hw nonce tl _ found hk (by decide) (by decide)
      rw [resumed, if_pos ⟨hk, hheld⟩]
      exact (if_pos hk).symm
    · rw [resumed, if_neg fun hc => hk hc.1]
      exact (if_neg hk).symm
  | _ => exact ⟨_, rfl, .one trivial rfl⟩

theorem backlog_step {e : Event} (hq : QueueSound w) (hw : SlotsHeld w) (h : Step rt w e w') :
    Backlog.monitor.Takes w.backlog (eventsAt rt ⟨w, e, w'⟩) w'.backlog := by
  rcases step_cases h with ⟨c, rfl, -, he⟩ | ⟨rfl, he⟩
  · obtain ⟨events, hemit, htakes⟩ := takes_backlog hq hw he
    rwa [eventsAt_call hemit]
  · refine Monitor.takes_nil.2 ?_
    unfold World.backlog
    rw [he.timelocks, he.config]

end Steps

/-- The queue of a fresh deployment. -/
def Backlog.empty : Backlog := ⟨fun _ => none, 0, 0, 0⟩

theorem backlog_initial {rt : Runtime} {now : ℤ} {w : World} (h : Initialized rt now w) :
    w.backlog = .empty := by
  obtain ⟨args, g, t, m, d⟩ := deployed_of_initialized h
  obtain ⟨usdc, -, rfl⟩ := d.state
  unfold World.backlog Backlog.empty
  rw [Backlog.mk.injEq]
  exact ⟨funext fun n => by simp, rfl, rfl, rfl⟩

/-- From the deployment on the events replay to the queue as it stands, and each event is true of
the queue that the ones before it replay to. -/
theorem backlog_replay {rt : Runtime} {now₀ : ℤ} {w₀ w : World} {es : List Entry}
    (h₀ : Initialized rt now₀ w₀) (run : Run rt w₀ es w) :
    Backlog.monitor.replay .empty (journal (eventsAt rt) es) = w.backlog ∧
    ∀ before event after, journal (eventsAt rt) es = before ++ event :: after →
      (Backlog.monitor.replay .empty before).Agrees event := by
  have htakes : Backlog.monitor.Takes w₀.backlog (journal (eventsAt rt) es) w.backlog :=
    follows_of_run (I := fun w => QueueSound w ∧ SlotsHeld w) (v := World.backlog)
      ⟨queueSound_initial h₀, slotsHeld_initial h₀⟩
      (fun ⟨hq, hw⟩ hs => ⟨hq.step hs, hw.step hs⟩) (fun ⟨hq, hw⟩ hs => backlog_step hq hw hs) run
  rw [backlog_initial h₀] at htakes
  exact htakes

theorem backlog_replay_queueCalls :
    Backlog.monitor.replay .empty (journal (eventsAt Reference.runtime)
        (Reference.entries Reference.runtime Reference.start queueCalls)) =
      (Reference.final Reference.runtime Reference.start queueCalls).backlog :=
  (backlog_replay Reference.initialized_start
    (Reference.run_of_succeeds (by decide +kernel))).1

end DominionSilver
