import DominionSilver.Spec.Priced

/-! The errors that the steps of a priced instruction cannot end with. Loading an account fails by a
constraint, a call to another program by that program's failure, and a check with the errors that it
names. -/

namespace DominionSilver

open Checked Bytes Tokens

variable {rt : Runtime} {d : DominionError}

theorem mapErr_error {ε α : Type} {f : ε → DominionError} {x : Except ε α} {e : Error} :
    mapErr f x = .error e ↔ ∃ d, x = .error d ∧ .dominion (f d) = e := by
  cases x <;> simp [mapErr]

section Accounts

theorem optionalAccount_ne {α : Type} (supplied : Bool) (o : Option α) :
    optionalAccount supplied o ≠ .error (.dominion d) := by
  unfold optionalAccount
  split_ifs
  · simp [bind_error, pure, Except.pure]
  · simp

theorem associated_ne (l : Ledger Pubkey) (owner mint : Pubkey) :
    associated rt l owner mint ≠ .error (.dominion d) := by
  simp [associated, constrain, bind_error, guardOr_error, pure, Except.pure]

theorem initAssociated_ne (l : Ledger Pubkey) (owner mint : Pubkey) :
    initAssociated rt l owner mint ≠ .error (.dominion d) := by
  unfold initAssociated
  split
  · simp
  · simp [constrain, bind_error, guardOr_error, pure, Except.pure]

end Accounts

theorem cpi_ne {α : Type} (o : Option α) : cpi o ≠ .error (.dominion d) := by
  cases o <;> simp [cpi, okOr]

theorem transferIfPositive_ne (w : World) (usdc : Ledger Pubkey) (src dst authority : Pubkey)
    (amount : UInt64) : transferIfPositive rt w usdc src dst authority amount ≠
      .error (.dominion d) := by
  unfold transferIfPositive
  split_ifs
  · exact cpi_ne _
  · simp

theorem enforceKyc_ne (hd : d ≠ .kycRequired) (flags : UInt8) (side : Side)
    (attestation : Option KycAccount) (user : Pubkey) :
    enforceKyc flags side attestation user ≠ .error (.dominion d) := by
  unfold enforceKyc
  split_ifs
  · cases attestation <;> simp [hd.symm]
  · simp

/-- What the checks on the SILV mint fail with. -/
abbrev silvMintErrors : List DominionError :=
  [.silvMintAuthorityMismatch, .silvFreezeAuthorityMismatch, .permanentDelegateMismatch,
    .transferHookUnexpected, .transferFeeUnexpected, .disallowedMintExtension]

theorem assertSilvMintInvariants_ne (hd : d ∉ silvMintErrors) (m : Mint Pubkey)
    (c : ConfigAccount) : assertSilvMintInvariants rt m c ≠ .error (.dominion d) := by
  simp only [List.mem_cons, List.not_mem_nil, or_false, not_or] at hd
  simp [assertSilvMintInvariants, bind_error, okOr_error, @eq_comm _ _ d, hd]

/-- What the verify call and the reads around it fail with. -/
abbrev lazerErrors : List DominionError :=
  [.lazerMessageTooLarge, .lazerWrongAccount, .lazerProgramNotExecutable, .lazerFeePayerMismatch,
    .lazerStorageMalformed, .lazerFeeTooHigh, .lazerReturnDataMissing,
    .lazerReturnDataWrongProgram, .lazerReturnDataMalformed]

theorem verifyAndGetPayload_ne (hd : d ∉ lazerErrors) (a : LazerAccounts) :
    verifyAndGetPayload rt a ≠ .error (.dominion d) := by
  simp only [List.mem_cons, List.not_mem_nil, or_false, not_or] at hd
  simp [verifyAndGetPayload, readTreasury, readFee, parseVerifiedMessage, cpi, bind_error,
    guardOr_error, okOr_error, pure, Except.pure, @eq_comm _ _ d, hd]

end DominionSilver
