import DominionSilver.Proofs.Kyc

/-! The gate over a run. Where it is armed on a side, whoever trades there was attested by the
attestor of the time and has not been revoked since, since nothing but an attestation makes a
wallet's account and nothing but a revocation closes it. Where it is not, the handler does not look
at the account; a caller may still not name one that does not exist, which does not load. -/

namespace DominionSilver

open Checked Bytes Tokens

/-- The attestor of the time attests `u`. -/
def Attests (u : Pubkey) (r : Entry) : Prop :=
  ∃ c reference, r.event = .call c ∧ c.ix = .attestKyc u reference ∧
    c.signer = r.pre.config.kycOperator

def Revokes (u : Pubkey) (r : Entry) : Prop :=
  ∃ c allowDisarm, r.event = .call c ∧ c.ix = .revokeKyc u allowDisarm

/-- The instruction trades on the side, with these accounts. -/
def TradesOn (ix : Instruction) (accounts : PricedAccounts) : Side → Prop
  | .mint => ∃ amountUsdc minSilvOut, ix = .mintSilv amountUsdc minSilvOut accounts
  | .redeem => ∃ amountSilv minUsdcOut, ix = .redeemSilv amountSilv minUsdcOut accounts

/-- The same instruction with the signer's KYC account supplied or left out. -/
def Instruction.withKyc (supplies : Bool) : Instruction → Instruction
  | .mintSilv amountUsdc minSilvOut accounts =>
      .mintSilv amountUsdc minSilvOut { accounts with suppliesKyc := supplies }
  | .redeemSilv amountSilv minUsdcOut accounts =>
      .redeemSilv amountSilv minUsdcOut { accounts with suppliesKyc := supplies }
  | ix => ix

def Call.withKyc (c : Call) (supplies : Bool) : Call := { c with ix := c.ix.withKyc supplies }

@[simp] theorem Call.withKyc_withKyc (c : Call) (a b : Bool) :
    (c.withKyc a).withKyc b = c.withKyc b := by
  obtain ⟨now, hnow, signer, ix⟩ := c
  cases ix <;> rfl

section Gate

variable {rt : Runtime} {w w' : World} {e : Event} {u : Pubkey} {flags : UInt8} {side : Side}
  {supplies : Bool} {o : Option KycAccount}

/-- The gate on an `Option` account: an armed one takes an account of the signer, a dormant one only
that the account loads. -/
def Passes (flags : UInt8) (side : Side) (supplies : Bool) (o : Option KycAccount) (u : Pubkey) :
    Prop :=
  ∃ kyc, optionalAccount supplies o = .ok kyc ∧ enforceKyc flags side kyc u = .ok ()

theorem Passes.attested (h : Passes flags side supplies o u) (hon : side.isSetIn flags = true) :
    o.isSome = true := by
  obtain ⟨kyc, hkyc, henforce⟩ := h
  simp only [enforceKyc, if_pos hon] at henforce
  cases kyc with
  | none => cases henforce
  | some a => rw [optionalAccount_some hkyc]; rfl

theorem passes_dormant (hoff : side.isSetIn flags = false) :
    Passes flags side supplies o u ↔ (supplies = true → o.isSome = true) := by
  simp only [Passes, enforceKyc, hoff, Bool.false_eq_true, if_false, and_true]
  exact exists_optionalAccount

theorem passes_of_exec {c : Call} {accounts : PricedAccounts} (h : exec rt c w = .ok w')
    (ht : TradesOn c.ix accounts side) :
    Passes w.config.kycScopeFlags side accounts.suppliesKyc (w.kycs.lookup c.signer) c.signer := by
  cases side with
  | mint =>
    obtain ⟨amountUsdc, minSilvOut, hix⟩ := ht
    cases effect_of_call h hix with
    | mintSilv minted => exact minted.kyc
  | redeem =>
    obtain ⟨amountSilv, minUsdcOut, hix⟩ := ht
    cases effect_of_call h hix with
    | redeemSilv redeemed => exact redeemed.kyc

theorem exec_withKyc_of_passes {c : Call} {accounts : PricedAccounts}
    (ht : TradesOn c.ix accounts side) (h : exec rt c w = .ok w')
    (hp : Passes w.config.kycScopeFlags side supplies (w.kycs.lookup c.signer) c.signer) :
    exec rt (c.withKyc supplies) w = .ok w' := by
  cases side with
  | mint =>
    obtain ⟨amountUsdc, minSilvOut, hix⟩ := ht
    obtain ⟨hs, he⟩ := (exec_mintSilv_iff hix).1 h
    have hix' : (c.withKyc supplies).ix =
        .mintSilv amountUsdc minSilvOut { accounts with suppliesKyc := supplies } := by
      simp only [Call.withKyc, hix, Instruction.withKyc]
    refine (exec_mintSilv_iff hix').2 ⟨hs, ?_⟩
    cases he with
    | mintSilv minted => exact .mintSilv { minted with kyc := hp }
  | redeem =>
    obtain ⟨amountSilv, minUsdcOut, hix⟩ := ht
    obtain ⟨hs, he⟩ := (exec_redeemSilv_iff hix).1 h
    have hix' : (c.withKyc supplies).ix =
        .redeemSilv amountSilv minUsdcOut { accounts with suppliesKyc := supplies } := by
      simp only [Call.withKyc, hix, Instruction.withKyc]
    refine (exec_redeemSilv_iff hix').2 ⟨hs, ?_⟩
    cases he with
    | redeemSilv redeemed => exact .redeemSilv { redeemed with kyc := hp }

theorem TradesOn.withKyc {ix : Instruction} {accounts : PricedAccounts}
    (h : TradesOn ix accounts side) :
    TradesOn (ix.withKyc supplies) { accounts with suppliesKyc := supplies } side := by
  cases side with
  | mint => obtain ⟨amountUsdc, minSilvOut, rfl⟩ := h; exact ⟨_, _, rfl⟩
  | redeem => obtain ⟨amountSilv, minUsdcOut, rfl⟩ := h; exact ⟨_, _, rfl⟩

/-- A wallet has an account because the step attests it, or because it had one and the step does not
revoke it. -/
theorem attested_step (h : Step rt w e w') (ha : (w'.kycs.lookup u).isSome = true) :
    Attests u ⟨w, e, w'⟩ ∨ ((w.kycs.lookup u).isSome = true ∧ ¬ Revokes u ⟨w, e, w'⟩) := by
  rcases step_cases h with ⟨⟨now, hnow, signer, ix⟩, rfl, -, he⟩ | ⟨rfl, he⟩
  · cases he with
    | @attestKyc wallet reference _ attestor =>
      by_cases hu : u = wallet
      · subst hu
        exact .inl ⟨_, reference, rfl, rfl, attestor⟩
      · rw [Finmap.lookup_insert_of_ne _ hu] at ha
        exact .inr ⟨ha, by rintro ⟨c, _, ⟨⟩, ⟨⟩⟩⟩
    | @revokeKyc wallet =>
      by_cases hu : u = wallet
      · subst hu
        rw [Finmap.lookup_erase] at ha
        cases ha
      · rw [Finmap.lookup_erase_ne hu] at ha
        refine .inr ⟨ha, ?_⟩
        rintro ⟨c, _, ⟨⟩, ⟨⟩⟩
        exact hu rfl
    | execute _ _ _ applied =>
      rw [(SameRoles.applied applied).kycs] at ha
      exact .inr ⟨ha, by rintro ⟨c, _, ⟨⟩, ⟨⟩⟩⟩
    | _ => exact .inr ⟨ha, by rintro ⟨c, _, ⟨⟩, ⟨⟩⟩⟩
  · rw [he.kycs] at ha
    exact .inr ⟨ha, by rintro ⟨c, _, ⟨⟩, -⟩⟩

end Gate

/-- Over every run, a trade on an armed side follows an attestation of its signer by the attestor of
the time, with no revocation since. On a dormant side it is accepted with the KYC account supplied
exactly where it is without, provided that the account exists. -/
theorem kyc_gate {rt : Runtime} {now₀ : ℤ} {w₀ w : World} {es : List Entry}
    (h₀ : Initialized rt now₀ w₀) (run : Run rt w₀ es w) :
    (∀ before r after, es = before ++ r :: after → ∀ (c : Call) side accounts, r.event = .call c →
      TradesOn c.ix accounts side → side.isSetIn r.pre.config.kycScopeFlags = true →
        Trace.Since (Attests c.signer) (Revokes c.signer) before) ∧
    ∀ (v v' : World) (c : Call) side accounts supplies, TradesOn c.ix accounts side →
      side.isSetIn v.config.kycScopeFlags = false →
        (exec rt (c.withKyc supplies) v = .ok v' ↔ exec rt (c.withKyc false) v = .ok v' ∧
          (supplies = true → (v.kycs.lookup c.signer).isSome = true)) := by
  constructor
  · rintro before ⟨pre, event, post⟩ after rfl c side accounts rfl ht hon
    obtain ⟨hrun, hs, -⟩ := run.split
    refine hrun.since (A := fun w => (w.kycs.lookup c.signer).isSome = true) ?_ attested_step
      ((passes_of_exec hs ht).attested hon)
    obtain ⟨args, g, t, m, d⟩ := deployed_of_initialized h₀
    obtain ⟨usdc, -, rfl⟩ := d.state
    simp
  · intro v v' c side accounts supplies ht hoff
    constructor
    · intro h
      have hp : Passes v.config.kycScopeFlags side supplies _ c.signer :=
        passes_of_exec h ht.withKyc
      have hnone : exec rt ((c.withKyc supplies).withKyc false) v = .ok v' :=
        exec_withKyc_of_passes ht.withKyc h ((passes_dormant hoff).2 nofun)
      exact ⟨by simpa using hnone, (passes_dormant hoff).1 hp⟩
    · rintro ⟨h, hex⟩
      have hsome : exec rt ((c.withKyc false).withKyc supplies) v = .ok v' :=
        exec_withKyc_of_passes ht.withKyc h ((passes_dormant hoff).2 hex)
      simpa using hsome

abbrev armed : World := Reference.final Reference.runtime Reference.start rosterCalls

def gatedCalls : List Call := rosterCalls ++
  [Reference.callAt 3500 Reference.admin
      (.unpause (Reference.hash armed.config.readinessBytes) Reference.guardian),
    Reference.callAt 3600 Reference.user (.mintSilv 100000000 0
      { Reference.pricedAt 3599000000 with suppliesKyc := true })]

def dormantCall : Call :=
  Reference.callAt 3700 Reference.user (.redeemSilv 3000000 0 (Reference.pricedAt 3699000000))

abbrev gated : World := Reference.final Reference.runtime Reference.start gatedCalls

theorem kyc_gate_gatedCalls :
    Trace.Since (Attests Reference.user) (Revokes Reference.user)
        (Reference.entries Reference.runtime Reference.start (gatedCalls.take 5)) ∧
      exec Reference.runtime (dormantCall.withKyc true) gated =
        .ok (Reference.next Reference.runtime gated dormantCall) :=
  have gate := kyc_gate Reference.initialized_start
    (@Reference.run_of_succeeds _ _ gatedCalls (by decide +kernel))
  ⟨gate.1 _ ⟨_, .call (Reference.callAt 3600 Reference.user (.mintSilv 100000000 0
      { Reference.pricedAt 3599000000 with suppliesKyc := true })), _⟩ _ rfl _ .mint _ rfl
      ⟨_, _, rfl⟩ (by decide +kernel),
    (gate.2 gated _ dormantCall .redeem _ true ⟨_, _, rfl⟩ (by decide +kernel)).2
      ⟨Reference.exec_next (by decide +kernel), fun _ => by decide +kernel⟩⟩

abbrev ungated : World :=
  Reference.final Reference.runtime Reference.start [Reference.unpauseCall]

/-- A mint that names the KYC account of a wallet that has none is refused on a dormant side. -/
theorem kyc_account_must_exist :
    ¬ ∀ (v v' : World) (c : Call) side accounts supplies, Reachable Reference.runtime v →
      TradesOn c.ix accounts side → side.isSetIn v.config.kycScopeFlags = false →
        (exec Reference.runtime (c.withKyc supplies) v = .ok v' ↔
          exec Reference.runtime (c.withKyc false) v = .ok v') := by
  intro h
  have hiff := h ungated (Reference.next Reference.runtime ungated Reference.mintCall)
    Reference.mintCall .mint _ true (Reference.reachable_final (by decide +kernel)) ⟨_, _, rfl⟩
    (by decide +kernel)
  have hok := hiff.2 (Reference.exec_next (by decide +kernel))
  have hno : (exec Reference.runtime (Reference.mintCall.withKyc true) ungated).isOk = false := by
    decide +kernel
  rw [hok] at hno
  cases hno

end DominionSilver
