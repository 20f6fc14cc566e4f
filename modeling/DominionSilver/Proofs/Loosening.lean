import DominionSilver.Sanity.Reference

/-! Redemption and supply limits are tightened at once and loosened only through
the timelock. A tighter budget is smaller and a tighter window longer. The cap on
the supply is never raised. -/

namespace DominionSilver

open Checked Bytes Tokens

/-- `c'` gives up nothing that `c` limits. -/
structure Tightens (c c' : ConfigAccount) : Prop where
  budget : c'.instantRedeemBudgetUsdc ≤ c.instantRedeemBudgetUsdc
  window : c.instantRedeemWindowSeconds ≤ c'.instantRedeemWindowSeconds
  redemptions : c'.redemptionsEnabled = true → c.redemptionsEnabled = true
  publicMint : c'.publicMintEnabled = true → c.publicMintEnabled = true

theorem Tightens.of_eq {c c' : ConfigAccount}
    (hb : c'.instantRedeemBudgetUsdc = c.instantRedeemBudgetUsdc)
    (hw : c'.instantRedeemWindowSeconds = c.instantRedeemWindowSeconds)
    (hr : c'.redemptionsEnabled = c.redemptionsEnabled)
    (hp : c'.publicMintEnabled = c.publicMintEnabled) : Tightens c c' :=
  ⟨hb ▸ UInt64.le_refl _, hw ▸ UInt32.le_refl _, fun h => hr ▸ h, fun h => hp ▸ h⟩

theorem tightens_writeTo {a : RedeemLimitsArgs} {c : ConfigAccount}
    (h : a.allTighten c = true) : Tightens c (a.writeTo c) := by
  simp only [RedeemLimitsArgs.allTighten, Bool.and_eq_true, decide_eq_true_eq] at h
  obtain ⟨⟨⟨⟨hb, hw⟩, -⟩, -⟩, hr⟩ := h
  refine ⟨?_, ?_, ?_, id⟩
  · cases hv : a.instantRedeemBudgetUsdc with
    | none => simp [RedeemLimitsArgs.writeTo, hv]
    | some v => simpa [RedeemLimitsArgs.writeTo, hv] using hb
  · cases hv : a.instantRedeemWindowSeconds with
    | none => simp [RedeemLimitsArgs.writeTo, hv]
    | some v => simpa [RedeemLimitsArgs.writeTo, hv] using hw
  · intro he
    cases hv : a.redemptionsEnabled with
    | none => simpa [RedeemLimitsArgs.writeTo, hv] using he
    | some v =>
      obtain rfl : v = true := by simpa [RedeemLimitsArgs.writeTo, hv] using he
      exact absurd hv hr

theorem tightens_of_applied {rt : Runtime} {ata : Pubkey} {w w₁ : World} {change : Change}
    (h : Applied rt ata w change w₁) (hl : change.kind ≠ .setRedeemLimits)
    (hp : change.kind ≠ .setPublicMint) : Tightens w.config w₁.config := by
  cases h with
  | redeemLimits => exact absurd rfl hl
  | publicMint => exact absurd rfl hp
  | _ => exact .of_eq rfl rfl rfl rfl

theorem maxSilvSupply_of_applied {rt : Runtime} {ata : Pubkey} {w w₁ : World} {change : Change}
    (h : Applied rt ata w change w₁) : w₁.config.maxSilvSupply = w.config.maxSilvSupply := by
  cases h <;> rfl

theorem tightens_of_effect {rt : Runtime} {now : ℤ} {signer : Pubkey} {ix : Instruction}
    {w w' : World} (h : Effect rt now signer w ix w')
    (hl : ∀ n r a, ix ≠ .execute .setRedeemLimits n r a)
    (hp : ∀ n r a, ix ≠ .execute .setPublicMint n r a) : Tightens w.config w'.config := by
  cases h with
  | setPublicMintEnabled => exact ⟨UInt64.le_refl _, UInt32.le_refl _, id, nofun⟩
  | setRedemptionsEnabled => exact ⟨UInt64.le_refl _, UInt32.le_refl _, nofun, id⟩
  | emergencyTightenRedeemLimits _ _ _ tighten =>
    have ht := tightens_writeTo tighten
    exact ⟨ht.budget, ht.window, ht.redemptions, ht.publicMint⟩
  | execute _ _ kind applied =>
    have ht := tightens_of_applied applied (fun e => hl _ _ _ (by rw [← kind, e]))
      fun e => hp _ _ _ (by rw [← kind, e])
    exact ⟨ht.budget, ht.window, ht.redemptions, ht.publicMint⟩
  | _ => exact .of_eq rfl rfl rfl rfl

theorem maxSilvSupply_of_effect {rt : Runtime} {now : ℤ} {signer : Pubkey} {ix : Instruction}
    {w w' : World} (h : Effect rt now signer w ix w') :
    w'.config.maxSilvSupply ≤ w.config.maxSilvSupply := by
  cases h with
  | setMaxSilvSupply _ _ lowered => exact lowered
  | execute _ _ _ applied => exact maxSilvSupply_of_applied applied ▸ UInt64.le_refl _
  | _ => exact UInt64.le_refl _

/-- In any state, no instruction raises the supply cap, and none but the executes of new redemption
limits and of the public mint loosens a limit. -/
theorem loosening_only_through_timelock {rt : Runtime} {c : Call} {w w' : World}
    (h : exec rt c w = .ok w') :
    w'.config.maxSilvSupply ≤ w.config.maxSilvSupply ∧
      ((∀ n r a, c.ix ≠ .execute .setRedeemLimits n r a) →
        (∀ n r a, c.ix ≠ .execute .setPublicMint n r a) → Tightens w.config w'.config) := by
  have he := (effect_of_exec h).2
  exact ⟨maxSilvSupply_of_effect he, fun hl hp => tightens_of_effect he hl hp⟩

def tightenCall : Call :=
  Reference.callAt 3000 Reference.admin
    (.emergencyTightenRedeemLimits ⟨some 10000000000, some 172800, none, none, none⟩)

theorem loosening_tightenCall :
    Tightens Reference.start.config
      (Reference.next Reference.runtime Reference.start tightenCall).config :=
  (loosening_only_through_timelock (c := tightenCall)
    (Reference.exec_next (by decide +kernel))).2 nofun nofun

end DominionSilver
