import DominionSilver.Proofs.Loosening

/-! The instant closes and the queued redemption limits. Both instant instructions empty the slot of
queued limits when they close redemptions, so that no opening stays armed behind a close. The
emergency one empties it for any mention of the switch, also where redemptions are closed already. -/

namespace DominionSilver

open Checked Bytes Tokens

def LimitsInstantly (ix : Instruction) : Prop :=
  (∃ enabled, ix = .setRedemptionsEnabled enabled) ∨
    ∃ args, ix = .emergencyTightenRedeemLimits args

/-- The queued limits `n` are disarmed only by a close, and stay armed where there is none to make. -/
structure OnlyCloseDisarms (n : UInt64) (w w' : World) : Prop where
  close : w'.config.pendingNonce .setRedeemLimits = none →
    w.config.redemptionsEnabled = true ∧ w'.config.redemptionsEnabled = false
  closed : w.config.redemptionsEnabled = false →
    w'.config.pendingNonce .setRedeemLimits = some n

/-- An emergency tighten mentions the switch only where redemptions are open. -/
def MentionsWhileOpen (ix : Instruction) (w : World) : Prop :=
  ∀ args, ix = .emergencyTightenRedeemLimits args → args.redemptionsEnabled.isSome = true →
    w.config.redemptionsEnabled = true

variable {rt : Runtime} {w w' : World} {n : UInt64}

theorem redemptionsEnabled_writeTo {args : RedeemLimitsArgs} {c : ConfigAccount}
    (ht : args.allTighten c = true) (hs : args.redemptionsEnabled.isSome = true) :
    (args.writeTo c).redemptionsEnabled = false := by
  obtain ⟨v, hv⟩ := Option.isSome_iff_exists.1 hs
  simp only [RedeemLimitsArgs.allTighten, Bool.and_eq_true, decide_eq_true_eq, hv] at ht
  simp only [RedeemLimitsArgs.writeTo, hv, Option.getD_some]
  exact Bool.eq_false_of_not_eq_true fun hopen => ht.2 (congrArg some hopen)

theorem onlyCloseDisarms_of_effect {now : ℤ} {signer : Pubkey} {ix : Instruction}
    (hn : w.config.pendingNonce .setRedeemLimits = some n) (hix : LimitsInstantly ix)
    (h : Effect rt now signer w ix w') : OnlyCloseDisarms n w w' ↔ MentionsWhileOpen ix w := by
  rcases hix with ⟨enabled, rfl⟩ | ⟨args, rfl⟩
  · cases h with
    | setRedemptionsEnabled _ enabled =>
      exact ⟨fun _ => nofun,
        fun _ => ⟨fun _ => ⟨enabled, rfl⟩, fun h => absurd (enabled.symm.trans h) nofun⟩⟩
  · cases h with
    | @emergencyTightenRedeemLimits _ pendingNonce _ _ _ tighten _ slots =>
      constructor
      · rintro h _ ⟨⟩ hs
        rw [if_pos hs] at slots
        have hnone : pendingNonce .setRedeemLimits = none := by
          rw [slots, Function.update_self]
        exact (h.close hnone).1
      · intro hopen
        by_cases hs : args.redemptionsEnabled.isSome = true
        · have hopen := hopen args rfl hs
          exact ⟨fun _ => ⟨hopen, redemptionsEnabled_writeTo tighten hs⟩,
            fun h => absurd (hopen.symm.trans h) nofun⟩
        · rw [if_neg hs] at slots
          have hkept : pendingNonce .setRedeemLimits = some n := by rw [slots, hn]
          exact ⟨fun h => absurd (hkept.symm.trans h) nofun, fun _ => hkept⟩

/-- Over every run, an instant limit on armed limits disarms them by a close alone exactly where it
does not mention the switch of redemptions that are closed. -/
theorem only_close_disarms_iff {w₀ : World} {es : List Entry} (run : Run rt w₀ es w) :
    ∀ r ∈ es, ∀ c n, r.event = .call c → r.pre.config.pendingNonce .setRedeemLimits = some n →
      LimitsInstantly c.ix → (OnlyCloseDisarms n r.pre r.post ↔ MentionsWhileOpen c.ix r.pre) := by
  rintro ⟨pre, event, post⟩ hr c n rfl hn hix
  obtain ⟨before, -, hstep⟩ := run.step_of_mem hr
  exact onlyCloseDisarms_of_effect hn hix (effect_of_exec hstep).2

def surelyClosedCall : Call :=
  Reference.callAt 3100 Reference.admin
    (.emergencyTightenRedeemLimits ⟨some 10000000000, none, none, none, some false⟩)

def reopenCalls : List Call :=
  [Reference.unpauseCall, Reference.callAt 2500 Reference.admin (.setRedemptionsEnabled false),
    Reference.callAt 3000 Reference.admin
      (.propose (.redeemLimits ⟨none, none, none, none, some true⟩))]

/-- The call takes the queued opening with it, and closes nothing. -/
theorem not_only_close_disarms_reopenCalls :
    ¬ ∀ w w' c n, Reachable Reference.runtime w → exec Reference.runtime c w = .ok w' →
      w.config.pendingNonce .setRedeemLimits = some n → LimitsInstantly c.ix →
      OnlyCloseDisarms n w w' := by
  intro h
  have hdisarms := h (Reference.final Reference.runtime Reference.start reopenCalls) _
    surelyClosedCall 0 (Reference.reachable_final (by decide +kernel))
    (Reference.exec_next (by decide +kernel)) (by decide +kernel) (.inr ⟨_, rfl⟩)
  exact absurd (hdisarms.close (by decide +kernel)).1 (by decide +kernel)

abbrev raising : World :=
  Reference.final Reference.runtime Reference.start
    [Reference.unpauseCall, Reference.callAt 3000 Reference.admin
      (.propose (.redeemLimits ⟨some 30000000000, none, none, none, none⟩))]

theorem only_close_disarms_iff_raising :
    OnlyCloseDisarms 0 raising (Reference.next Reference.runtime raising surelyClosedCall) :=
  (only_close_disarms_iff
    (@Reference.run_of_succeeds Reference.runtime raising [surelyClosedCall] (by decide +kernel)) _
    List.mem_cons_self surelyClosedCall 0 rfl (by decide +kernel) (.inr ⟨_, rfl⟩)).2
      fun _ _ _ => by decide +kernel

end DominionSilver
