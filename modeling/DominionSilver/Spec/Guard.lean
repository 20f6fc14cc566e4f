import DominionSilver.Spec.Main

/-! The guard of the scripts that send transactions (`scripts/_guard.ts`): what each action costs to
undo, which actions pass without being named, and which action an instruction is. -/

namespace DominionSilver

namespace Guard

inductive ActionCost
  | reversible | timelockedUndo | irreversible
deriving DecidableEq

open ActionCost in
def ACTION_COST : List (String × ActionCost) :=
  [("pause", reversible),
    ("unpause", reversible),
    ("add_guardian", reversible),
    ("propose_set_premium_mint", timelockedUndo),
    ("execute_set_premium_mint", timelockedUndo),
    ("deposit_usdc", timelockedUndo),
    ("propose_set_inventory_wallet", reversible),
    ("execute_set_inventory_wallet", timelockedUndo),
    ("admin_premint", irreversible),
    ("propose_any", reversible),
    ("cancel_timelocked_action", reversible),
    ("cancel_guardian_removal", reversible),
    ("set_public_mint_enabled_false", timelockedUndo),
    ("set_redemptions_enabled_false", timelockedUndo),
    ("emergency_tighten_redeem_limits", timelockedUndo),
    ("execute_set_public_mint", timelockedUndo),
    ("execute_set_pyth_feed", timelockedUndo),
    ("remove_guardian", timelockedUndo),
    ("finalize_guardian_removal", timelockedUndo),
    ("create_fee_vault", irreversible),
    ("create_usdc_treasury", irreversible),
    ("create_inventory_silv_ata", reversible),
    ("set_fee_exempt", reversible),
    ("remove_fee_exempt", reversible),
    ("set_kyc_operator", reversible),
    ("attest_kyc", reversible),
    ("revoke_kyc", reversible),
    ("set_kyc_scope", reversible),
    ("execute_open_redemptions", reversible),
    ("set_max_silv_supply", irreversible),
    ("initialize", irreversible),
    ("set_upgrade_authority", irreversible),
    ("close_program", irreversible),
    ("withdraw_fees", irreversible),
    ("extend_program_data", irreversible),
    ("deploy_program", irreversible)]

/-- The names that every object has. -/
def inherited : List String :=
  ["constructor", "hasOwnProperty", "isPrototypeOf", "propertyIsEnumerable", "toLocaleString",
    "toString", "valueOf", "__proto__", "__defineGetter__", "__defineSetter__", "__lookupGetter__",
    "__lookupSetter__"]

/-- `ACTION_COST[action]`, where an inherited name gives something that is no cost. -/
def costOf (action : String) : Option (Option ActionCost) :=
  match ACTION_COST.lookup action with
  | some cost => some (some cost)
  | none => if action ∈ inherited then some none else none

def assertReversible (action : String) (intent : List String) : Except String Unit :=
  match costOf action with
  | none => .error ("assertReversible: unknown action \"" ++ action ++
      "\". Add it to ACTION_COST with an honest cost before using it. Refusing by default.")
  | some cost =>
    if cost = some .reversible then .ok ()
    else if action ∈ intent then .ok ()
    else .error ("REFUSING \"" ++ action ++ "\": undoing it is " ++
      (if cost = some .irreversible then "IMPOSSIBLE without a program upgrade"
        else "a 24h timelock") ++ ".\n" ++
      "A test must never take an action it cannot cheaply undo. This is the rule added\n" ++
      "after a test closed the public mint on 2026-07-29 and cost 24h to reopen.\n" ++
      "If an operator really wants this, pass it as an explicit intent.")

theorem assertReversible_nil {action : String} :
    assertReversible action [] = .ok () ↔ ACTION_COST.lookup action = some .reversible := by
  unfold assertReversible costOf
  cases ACTION_COST.lookup action with
  | none => by_cases h : action ∈ inherited <;> simp [h]
  | some cost => by_cases h : cost = .reversible <;> simp [h]

example : assertReversible "add_guardian" [] = .ok () := assertReversible_nil.2 (by decide +kernel)

example : ACTION_COST.lookup "deposit_usdc" ≠ some .reversible := by decide +kernel

end Guard

/-- The action that an instruction is taken for. No script hands the guard an instruction, so this
table is a choice of this model: it goes by the names, takes `propose_any` for the proposals that have
no name of their own and `execute_open_redemptions` for the execute of new redemption limits, and
leaves an instruction without an action where no name fits it. -/
def actionOf : Instruction → Option String
  | .depositUsdc _ _ => some "deposit_usdc"
  | .setFeeExempt _ _ _ => some "set_fee_exempt"
  | .removeFeeExempt _ => some "remove_fee_exempt"
  | .withdrawFees _ _ => some "withdraw_fees"
  | .setKycOperator _ => some "set_kyc_operator"
  | .setKycScope _ => some "set_kyc_scope"
  | .attestKyc _ _ => some "attest_kyc"
  | .revokeKyc _ _ => some "revoke_kyc"
  | .pause _ => some "pause"
  | .unpause _ _ => some "unpause"
  | .setMaxSilvSupply _ => some "set_max_silv_supply"
  | .setPublicMintEnabled false => some "set_public_mint_enabled_false"
  | .setRedemptionsEnabled false => some "set_redemptions_enabled_false"
  | .emergencyTightenRedeemLimits _ => some "emergency_tighten_redeem_limits"
  | .adminPremint _ _ => some "admin_premint"
  | .addGuardian _ => some "add_guardian"
  | .removeGuardian _ => some "remove_guardian"
  | .finalizeGuardianRemoval _ => some "finalize_guardian_removal"
  | .cancelGuardianRemoval _ => some "cancel_guardian_removal"
  | .cancelTimelockedAction _ _ _ => some "cancel_timelocked_action"
  | .propose change =>
    if change.kind = .setPremiumMint then some "propose_set_premium_mint"
    else if change.kind = .setInventoryWallet then some "propose_set_inventory_wallet"
    else some "propose_any"
  | .execute .setPremiumMint _ _ _ => some "execute_set_premium_mint"
  | .execute .setInventoryWallet _ _ _ => some "execute_set_inventory_wallet"
  | .execute .setPublicMint _ _ _ => some "execute_set_public_mint"
  | .execute .setPythFeed _ _ _ => some "execute_set_pyth_feed"
  | .execute .setRedeemLimits _ _ _ => some "execute_open_redemptions"
  | _ => none

/-- The guard lets the instruction through for an operator that names no action. -/
def LetThrough (ix : Instruction) : Prop :=
  ∃ action, actionOf ix = some action ∧ Guard.assertReversible action [] = .ok ()

end DominionSilver
