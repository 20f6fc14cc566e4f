import DominionSilver.Sanity.Reference
import DominionSilver.Spec.Squads

/-! The console's list of proposals. It has the existing ones of the last indices, newest first. Its
stale flag is read off a view of the multisig that does not carry the index it compares with, so the
flag is never set, and it is right where no proposal that is listed has been voided. -/

namespace DominionSilver

open Bytes Countdown Squads

def InWindow (T lookback i : ℤ) : Prop := max 0 (T - lookback) < i ∧ i ≤ T

/-- The proposal account of an index. -/
def proposal? (sdk : Sdk) (env : Env) (role : SquadsRole) (i : ℤ) : Option Proposal :=
  sdk.proposalAt (sdk.getProposalPda (roleMultisigPda env role) i)

/-- The list has the existing proposals of the window, each once and newest first, as they are
stored. -/
structure Listed (sdk : Sdk) (env : Env) (role : SquadsRole) (ms : Multisig) (lookback : ℤ)
    (out : List ProposalView) : Prop where
  newestFirst : out.Pairwise fun a b => b.transactionIndex < a.transactionIndex
  exactly : ∀ i, (∃ v ∈ out, v.transactionIndex = i) ↔
    InWindow ms.transactionIndex.toNat lookback i ∧ (proposal? sdk env role i).isSome = true
  stored : ∀ v ∈ out, ∃ p, proposal? sdk env role v.transactionIndex = some p ∧
    v.status = p.status.getD "Unknown" ∧ v.approvals = (p.approved.getD []).length ∧
    v.rejections = (p.rejected.getD []).length ∧ v.threshold = ms.threshold.toNat

/-- The flag is set exactly for the voided proposals. -/
def Flagged (ms : Multisig) (out : List ProposalView) : Prop :=
  ∀ v ∈ out, v.stale = true ↔ v.transactionIndex ≤ ms.staleTransactionIndex.toNat

section List

variable {sdk : Sdk} {env : Env} {role : SquadsRole} {ms : Multisig}

/-- The view of the multisig, which leaves out the stale index. -/
def infoOf (sdk : Sdk) (env : Env) (role : SquadsRole) (ms : Multisig) : MultisigInfo :=
  ⟨roleMultisigPda env role, roleVaultPda sdk env role 0, ms.threshold.toNat, ms.members,
    ms.transactionIndex.toNat⟩

theorem listProposals_eq (hconf : isConfigured env role = true)
    (hms : sdk.multisigAt (roleMultisigPda env role) = some ms) (lookback : Option ℤ) :
    listProposals sdk env role lookback = some (countdown
      (fun i => viewAt sdk (infoOf sdk env role ms) 0 i)
      (ms.transactionIndex.toNat - lookback.getD 20) ms.transactionIndex.toNat) := by
  have hinfo : fetchMultisig sdk env role = some (infoOf sdk env role ms) := by
    simp only [fetchMultisig, hms]
    rfl
  have hstale : bigInt (((infoOf sdk env role ms).property "staleTransactionIndex").getD
      (.number 0)) = some 0 := by
    simp [MultisigInfo.property, bigInt]
  simp only [listProposals, hconf, hinfo, Bool.true_eq_false, if_false, Option.bind_eq_bind,
    Option.bind_some, hstale]
  rfl

theorem viewAt_eq_some {info : MultisigInfo} {s i : ℤ} {v : ProposalView} :
    viewAt sdk info s i = some v ↔
      ∃ p, sdk.proposalAt (sdk.getProposalPda info.multisigPda i) = some p ∧
        v = ⟨i ≤ s, i, p.status.getD "Unknown", (p.approved.map List.length).getD 0,
          (p.rejected.map List.length).getD 0, info.threshold⟩ := by
  simp only [viewAt, Option.bind_eq_bind, Option.bind_eq_some_iff, Option.pure_def,
    Option.some.injEq]
  exact exists_congr fun p => and_congr_right fun _ => eq_comm

theorem listed (lookback : ℤ) :
    Listed sdk env role ms lookback (countdown (fun i => viewAt sdk (infoOf sdk env role ms) 0 i)
      (ms.transactionIndex.toNat - lookback) ms.transactionIndex.toNat) := by
  refine ⟨?_, ?_, ?_⟩
  · refine countdown_pairwise fun i v hv => ?_
    obtain ⟨p, -, rfl⟩ := viewAt_eq_some.1 hv
    rfl
  · intro i
    constructor
    · rintro ⟨v, hv, rfl⟩
      obtain ⟨i, hpos, hi, hle, hv⟩ := mem_countdown.1 hv
      obtain ⟨p, hp, rfl⟩ := viewAt_eq_some.1 hv
      exact ⟨⟨max_lt (Int.natCast_pos.2 hpos) hi, Int.ofNat_le.2 hle⟩,
        Option.isSome_iff_exists.2 ⟨p, hp⟩⟩
    · rintro ⟨⟨hlow, hhigh⟩, hex⟩
      obtain ⟨hpos, hi⟩ := max_lt_iff.1 hlow
      obtain ⟨p, hp⟩ := Option.isSome_iff_exists.1 hex
      obtain ⟨n, rfl⟩ := Int.eq_ofNat_of_zero_le hpos.le
      exact ⟨_, mem_countdown.2 ⟨n, by omega, hi, by omega, viewAt_eq_some.2 ⟨p, hp, rfl⟩⟩, rfl⟩
  · intro v hv
    obtain ⟨i, -, -, -, hv⟩ := mem_countdown.1 hv
    obtain ⟨p, hp, rfl⟩ := viewAt_eq_some.1 hv
    exact ⟨p, hp, rfl, by cases p.approved <;> rfl, by cases p.rejected <;> rfl, rfl⟩

theorem not_stale {lookback : ℤ} {v : ProposalView}
    (hv : v ∈ countdown (fun i => viewAt sdk (infoOf sdk env role ms) 0 i)
      (ms.transactionIndex.toNat - lookback) ms.transactionIndex.toNat) : v.stale = false := by
  obtain ⟨i, hpos, -, -, hv⟩ := mem_countdown.1 hv
  obtain ⟨p, -, rfl⟩ := viewAt_eq_some.1 hv
  exact decide_eq_false (by omega)

/-- The console lists the proposals of the window as they are stored. The list is right, flags
included, exactly where each of them is above the stale index. -/
def ListsProposals (sdk : Sdk) (env : Env) (role : SquadsRole) (ms : Multisig)
    (lookback : Option ℤ) : Prop :=
  ∃ out, listProposals sdk env role lookback = some out ∧
    Listed sdk env role ms (lookback.getD 20) out ∧
    (Flagged ms out ↔ ∀ i, InWindow ms.transactionIndex.toNat (lookback.getD 20) i →
      (proposal? sdk env role i).isSome = true → ms.staleTransactionIndex.toNat < i)

theorem listProposals_faithful_iff (hconf : isConfigured env role = true)
    (hms : sdk.multisigAt (roleMultisigPda env role) = some ms) (lookback : Option ℤ) :
    ListsProposals sdk env role ms lookback := by
  have hlisted : Listed sdk env role ms (lookback.getD 20) _ := listed (lookback.getD 20)
  refine ⟨_, listProposals_eq hconf hms lookback, hlisted, ?_⟩
  constructor
  · intro hflagged i hwindow hex
    obtain ⟨v, hv, rfl⟩ := (hlisted.exactly i).2 ⟨hwindow, hex⟩
    by_contra hle
    have hstale := (hflagged v hv).2 (by omega)
    rw [not_stale hv] at hstale
    cases hstale
  · intro habove v hv
    obtain ⟨hwindow, hex⟩ := (hlisted.exactly _).1 ⟨v, hv, rfl⟩
    have := habove _ hwindow hex
    rw [not_stale hv]
    exact iff_of_false nofun (by omega)

end List

section Examples

def changedMultisig : Multisig := ⟨2, [Reference.user], 2, 1⟩

def changedEnv : Env := ⟨Reference.key 20, Bytes32.zero⟩

def changedSdk : Sdk where
  getVaultPda _ _ := Reference.key 21
  getProposalPda _ i := Reference.key (UInt8.ofNat i.toNat)
  multisigAt k := if k = Reference.key 20 then some changedMultisig else none
  proposalAt k := if k = Reference.key 1 ∨ k = Reference.key 2 then
    some ⟨some "Active", some [Reference.user], some []⟩ else none

theorem listProposals_faithful_iff_changed :
    ListsProposals changedSdk changedEnv .ops changedMultisig none :=
  listProposals_faithful_iff (by decide) (by decide) none

/-- The voided proposal is listed as live. -/
theorem stale_proposal_not_flagged :
    changedSdk.multisigAt (roleMultisigPda changedEnv .ops) = some changedMultisig ∧
      changedMultisig.staleTransactionIndex = 1 ∧
      ∃ out, listProposals changedSdk changedEnv .ops none = some out ∧
        (⟨false, 1, "Active", 1, 0, 2⟩ : ProposalView) ∈ out ∧ ¬ Flagged changedMultisig out := by
  have hview : (⟨false, 1, "Active", 1, 0, 2⟩ : ProposalView) ∈ countdown
      (fun i => viewAt changedSdk (infoOf changedSdk changedEnv .ops changedMultisig) 0 i)
      (2 - 20) 2 := by decide
  refine ⟨by decide, rfl, _, listProposals_eq (by decide) (by decide) none, hview, ?_⟩
  intro h
  cases (h _ hview).2 (by decide)

end Examples

end DominionSilver
