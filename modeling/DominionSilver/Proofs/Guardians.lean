import DominionSilver.Sanity.Reference
import DominionSilver.Sanity.Roles

/-! The guardian set. Two counters follow the accounts through adding, scheduling,
finalizing and cancelling, so the floor under the active guardians never gives
way and no counter underflows. -/

namespace DominionSilver

open Checked Bytes Tokens

namespace GuardianAccount

def isActive (g : GuardianAccount) : Bool := g.addedAt ≠ 0 && g.cooldownUntil = 0

def isScheduled (g : GuardianAccount) : Bool := g.pendingRemovalAt ≠ 0

end GuardianAccount

/-- The counters count, and every account was added at some time. -/
structure GuardiansSound (w : World) : Prop where
  count : w.config.guardianCount.toNat =
    Accounts.countWhere GuardianAccount.isActive w.guardians
  pending : w.config.pendingRemovalCount.toNat =
    Accounts.countWhere GuardianAccount.isScheduled w.guardians
  added : ∀ k g, w.guardians.lookup k = some g → g.addedAt ≠ 0
  active : ∀ k g, w.guardians.lookup k = some g → g.pendingRemovalAt ≠ 0 → g.cooldownUntil = 0
  floor : w.config.pendingRemovalCount.toNat + 1 ≤ w.config.guardianCount.toNat
  ceiling : w.config.guardianCount.toNat ≤ w.config.maxGuardianCount.toNat

theorem guardiansSound_initial {rt : Runtime} {now : ℤ} {w : World} (h : Initialized rt now w)
    (hnow : 0 < now) : GuardiansSound w := by
  have haccount : ∀ k a, w.guardians.lookup k = some a → a = ⟨k, now, 0, 0, false⟩ :=
    fun _ _ hl => account_initial h hl
  obtain ⟨args, g, t, m, d⟩ := deployed_of_initialized h
  obtain ⟨usdc, -, rfl⟩ := d.state
  have hm : 1 ≤ m.toNat := Nat.one_le_iff_ne_zero.2 fun h0 => d.seats (UInt8.toNat_inj.1 h0)
  have hcount := fun p => Accounts.countWhere_insert p (∅ : Accounts Pubkey GuardianAccount)
    args.guardian ⟨args.guardian, now, 0, 0, false⟩
  simp only [Accounts.countWhere_empty, Finmap.lookup_empty, Option.any_none] at hcount
  refine ⟨?_, ?_, ?_, ?_, le_rfl, hm⟩
  · have := hcount GuardianAccount.isActive
    simp [GuardianAccount.isActive, hnow.ne'] at this
    exact this.symm
  · have := hcount GuardianAccount.isScheduled
    simp [GuardianAccount.isScheduled] at this
    exact this.symm
  · intro k a hl
    rw [haccount k a hl]
    exact hnow.ne'
  · intro k a hl hp
    rw [haccount k a hl] at hp
    exact absurd rfl hp

theorem GuardiansSound.congr {w w' : World} (hw : GuardiansSound w)
    (hg : w'.guardians = w.guardians) (hc : w'.config.guardianCount = w.config.guardianCount)
    (hp : w'.config.pendingRemovalCount = w.config.pendingRemovalCount)
    (hm : w'.config.maxGuardianCount = w.config.maxGuardianCount) : GuardiansSound w' := by
  constructor
  · rw [hc, hg]; exact hw.count
  · rw [hp, hg]; exact hw.pending
  · rw [hg]; exact hw.added
  · rw [hg]; exact hw.active
  · rw [hc, hp]; exact hw.floor
  · rw [hc, hm]; exact hw.ceiling

/-- What an instruction that writes account `k` has to show: how each counter follows what the
account counted before and counts after. -/
theorem GuardiansSound.write {w w' : World} {k : Pubkey} {g : GuardianAccount}
    (hw : GuardiansSound w) (hg : w'.guardians = w.guardians.insert k g)
    (hm : w'.config.maxGuardianCount = w.config.maxGuardianCount) (hadded : g.addedAt ≠ 0)
    (hactive : g.pendingRemovalAt ≠ 0 → g.cooldownUntil = 0)
    (hcount : w'.config.guardianCount.toNat +
        (if (w.guardians.lookup k).any GuardianAccount.isActive then 1 else 0) =
      w.config.guardianCount.toNat + if g.isActive then 1 else 0)
    (hpending : w'.config.pendingRemovalCount.toNat +
        (if (w.guardians.lookup k).any GuardianAccount.isScheduled then 1 else 0) =
      w.config.pendingRemovalCount.toNat + if g.isScheduled then 1 else 0)
    (hfloor : w'.config.pendingRemovalCount.toNat + 1 ≤ w'.config.guardianCount.toNat)
    (hceiling : w'.config.guardianCount.toNat ≤ w.config.maxGuardianCount.toNat) :
    GuardiansSound w' := by
  have h1 := Accounts.countWhere_insert GuardianAccount.isActive w.guardians k g
  have h2 := Accounts.countWhere_insert GuardianAccount.isScheduled w.guardians k g
  have hc := hw.count
  have hp := hw.pending
  refine ⟨by rw [hg]; omega, by rw [hg]; omega, ?_, ?_, hfloor, hm ▸ hceiling⟩
  · rw [hg]; exact Accounts.forall_insert hw.added hadded
  · rw [hg]
    refine fun j a => Accounts.forall_insert (p := fun _ a => a.pendingRemovalAt ≠ 0 →
      a.cooldownUntil = 0) hw.active hactive j a

section Effects

variable {rt : Runtime} {now : ℤ} {signer k : Pubkey} {w w' : World} {g : GuardianAccount}

theorem GuardiansSound.isActive (hw : GuardiansSound w) (hl : w.guardians.lookup k = some g)
    (hc : g.cooldownUntil = 0) : g.isActive = true := by
  simp [GuardianAccount.isActive, hw.added k g hl, hc]

theorem guardianCount_succ {count most : UInt8} (h : count < most) :
    (saturatingAdd count 1).toNat = count.toNat + 1 := by
  have hroom := UInt8.lt_iff_toNat_lt.1 h
  have hmost := most.toNat_lt
  have hadd := toNat_saturatingAdd count 1
  simp only [word_uint8, UInt8.toNat_one] at hadd
  have hsize : Word.size UInt8 = 256 := rfl
  omega

theorem GuardiansSound.addGuardian (hw : GuardiansSound w) (hnow : 0 < now)
    (h : Effect rt now signer w (.addGuardian k) w') : GuardiansSound w' := by
  cases h with
  | addGuardian admin notAdmin notPending cooled idle room unscheduled =>
    have hidle : (w.guardians.lookup k).any GuardianAccount.isActive = false := by
      unfold guardianAt at idle
      cases hl : w.guardians.lookup k with
      | none => rfl
      | some g => simpa [hl, GuardianAccount.isActive] using idle
    have hunscheduled : (w.guardians.lookup k).any GuardianAccount.isScheduled = false := by
      unfold guardianAt at unscheduled
      cases hl : w.guardians.lookup k with
      | none => rfl
      | some g => simpa [hl, GuardianAccount.isScheduled] using unscheduled
    have hroom := UInt8.lt_iff_toNat_lt.1 room
    have hcount := guardianCount_succ room
    have hfloor := hw.floor
    refine hw.write rfl rfl hnow.ne' (fun hs => absurd unscheduled hs) ?_ ?_ ?_ ?_
    · rw [hidle]; simp [GuardianAccount.isActive, hnow.ne', hcount]
    · rw [hunscheduled]; simp [GuardianAccount.isScheduled, unscheduled]
    · simp only [hcount]; omega
    · simp only [hcount]; omega

theorem GuardiansSound.removeGuardian (hw : GuardiansSound w) (hnow : 0 < now)
    (h : Effect rt now signer w (.removeGuardian k) w') : GuardiansSound w' := by
  cases h with
  | @removeGuardian k g effectiveAt count admin found own active delay scheduled =>
    have hact := hw.isActive found active
    have heff : effectiveAt ≠ 0 := by omega
    have hnew : ({ g with pendingRemovalAt := effectiveAt } : GuardianAccount).isActive = true :=
      hact
    have hsched : ({ g with pendingRemovalAt := effectiveAt } : GuardianAccount).isScheduled =
        true := by simp [GuardianAccount.isScheduled, heff]
    have hfloor := hw.floor
    have hpend : count.toNat + (if g.isScheduled then 1 else 0) =
        w.config.pendingRemovalCount.toNat + 1 ∧
          count.toNat + 1 ≤ w.config.guardianCount.toNat := by
      rcases scheduled with ⟨h0, hmay, hcount⟩ | ⟨h0, -, rfl⟩
      · have hsub := toNat_saturatingSub w.config.guardianCount w.config.pendingRemovalCount
        have hmay : 1 < (activeNotPending w.config.guardianCount
            w.config.pendingRemovalCount).toNat := UInt8.lt_iff_toNat_lt.1 (of_decide_eq_true hmay)
        simp only [word_uint8] at hsub
        simp only [activeNotPending] at hmay
        simp [GuardianAccount.isScheduled, h0]
        omega
      · simp [GuardianAccount.isScheduled, h0, hfloor]
    refine hw.write rfl rfl (hw.added k g found) (fun _ => active) ?_ ?_ hpend.2 hw.ceiling
    · rw [found, Option.any_some, hact, hnew]
    · rw [found, Option.any_some, hsched]; exact hpend.1

theorem GuardiansSound.finalizeGuardianRemoval (hw : GuardiansSound w) (hnow : 0 < now)
    (h : Effect rt now signer w (.finalizeGuardianRemoval k) w') : GuardiansSound w' := by
  cases h with
  | @finalizeGuardianRemoval k g cooldown c p found own active sched due inTime floor cool count
      pending =>
    have hact := hw.isActive found active
    have hcool : cooldown ≠ 0 := by simp only [cool, GUARDIAN_REMOVE_COOLDOWN_SECONDS]; omega
    have hfloor := hw.floor
    have hceil := hw.ceiling
    refine hw.write rfl rfl (hw.added k g found) (fun h => absurd rfl h) ?_ ?_ ?_ ?_
    · rw [found, Option.any_some, hact]; simp [GuardianAccount.isActive, hcool, count]
    · rw [found, Option.any_some]; simp [GuardianAccount.isScheduled, sched, pending]
    · simp only; omega
    · simp only; omega

theorem GuardiansSound.cancelGuardianRemoval (hw : GuardiansSound w)
    (h : Effect rt now signer w (.cancelGuardianRemoval k) w') : GuardiansSound w' := by
  cases h with
  | @cancelGuardianRemoval k g used p found own sched auth pending =>
    have hact := hw.isActive found (hw.active k g found sched)
    have hnew : ({ g with selfCancelUsed := used, pendingRemovalAt := 0 } :
        GuardianAccount).isActive = true := hact
    have hfloor := hw.floor
    refine hw.write rfl rfl (hw.added k g found) (fun h => absurd rfl h) ?_ ?_ ?_ hw.ceiling
    · rw [found, Option.any_some, hact, hnew]
    · rw [found, Option.any_some]; simp [GuardianAccount.isScheduled, sched, pending]
    · simp only; omega

theorem GuardiansSound.effect {ix : Instruction} (hw : GuardiansSound w) (hnow : 0 < now)
    (h : Effect rt now signer w ix w') : GuardiansSound w' := by
  cases ix with
  | addGuardian k => exact hw.addGuardian hnow h
  | removeGuardian k => exact hw.removeGuardian hnow h
  | finalizeGuardianRemoval k => exact hw.finalizeGuardianRemoval hnow h
  | cancelGuardianRemoval k => exact hw.cancelGuardianRemoval h
  | execute k n rent ata =>
    cases h with
    | execute _ _ _ applied =>
      have hroles := SameRoles.applied (k := k) (n := n) applied
      exact hw.congr hroles.guardians hroles.guardianCount hroles.pendingRemovalCount
        hroles.maxGuardianCount
  | initializeAgain => cases h
  | _ => cases h; exact hw.congr rfl rfl rfl rfl

end Effects

/-- Every instruction of a run, and its deployment, reads a clock after the epoch. -/
def ClockPositive (now₀ : ℤ) (es : List Entry) : Prop :=
  0 < now₀ ∧ ∀ r ∈ es, ∀ c, r.event = .call c → 0 < c.now

theorem guardiansSound_of_run {rt : Runtime} {now₀ : ℤ} {w₀ w : World} {es : List Entry}
    (h₀ : Initialized rt now₀ w₀) (run : Run rt w₀ es w) (hclock : ClockPositive now₀ es) :
    GuardiansSound w := by
  induction run with
  | nil => exact guardiansSound_initial h₀ hclock.1
  | @snoc es w e w' run last ih =>
    have hw := ih ⟨hclock.1, fun r hr => hclock.2 r (List.mem_append_left _ hr)⟩
    have hnow := hclock.2 _ (List.mem_append_right _ List.mem_cons_self)
    rcases step_cases last with ⟨c, rfl, -, he⟩ | ⟨rfl, he⟩
    · exact hw.effect (hnow c rfl) he
    · exact hw.congr he.guardians (by rw [he.config]) (by rw [he.config]) (by rw [he.config])

/-- The guardian set as the accounts and the counters hold it. -/
structure GuardianSet (w : World) : Prop where
  count : w.config.guardianCount.toNat =
    Accounts.countWhere GuardianAccount.isActive w.guardians
  pending : w.config.pendingRemovalCount.toNat =
    Accounts.countWhere GuardianAccount.isScheduled w.guardians
  active : ∀ k g, w.guardians.lookup k = some g → g.pendingRemovalAt ≠ 0 → g.isActive = true
  range : 1 ≤ w.config.guardianCount ∧ w.config.guardianCount ≤ w.config.maxGuardianCount
  floor : 1 ≤ w.config.guardianCount.toNat - w.config.pendingRemovalCount.toNat

theorem GuardiansSound.guardianSet {w : World} (hw : GuardiansSound w) : GuardianSet w := by
  have hfloor := hw.floor
  exact ⟨hw.count, hw.pending, fun k g hl hp => hw.isActive hl (hw.active k g hl hp),
    ⟨UInt8.le_iff_toNat_le.2 (by simp only [UInt8.toNat_one]; omega),
      UInt8.le_iff_toNat_le.2 hw.ceiling⟩, by omega⟩

theorem GuardiansSound.scheduled {w : World} {k : Pubkey} {g : GuardianAccount}
    (hw : GuardiansSound w) (hl : w.guardians.lookup k = some g) (hs : g.pendingRemovalAt ≠ 0) :
    1 ≤ w.config.pendingRemovalCount.toNat ∧ 2 ≤ w.config.guardianCount.toNat := by
  have hpos := Accounts.countWhere_pos (p := GuardianAccount.isScheduled) hl
    (by simp [GuardianAccount.isScheduled, hs])
  have := hw.pending
  have := hw.floor
  omega

section Errors

variable {now : ℤ} {signer k : Pubkey} {w : World} {e : Error}

theorem finalize_error (hw : GuardiansSound w)
    (h : finalizeGuardianRemovalHandler k now w = .error e) :
    e ≠ .dominion .guardianFloorBreached ∧ e ≠ .dominion .arithmeticOverflow := by
  simp only [finalizeGuardianRemovalHandler, bind_error, existing_ok, existing_error, require_ok,
    require_error, okOr_ok, okOr_error, orOverflow_ok, orOverflow_error, exists_unit,
    checkedSub_eq_none, word_uint8, UInt8.toNat_one] at h
  rcases h with ⟨-, rfl⟩ | ⟨g, hl, h⟩
  · simp
  rcases h with ⟨-, rfl⟩ | ⟨-, ⟨-, rfl⟩ | ⟨-, ⟨-, rfl⟩ | ⟨hs, ⟨-, rfl⟩ | ⟨-, ⟨-, rfl⟩ | ⟨-, h⟩⟩⟩⟩⟩
  · simp
  · simp
  · simp
  · simp
  · simp
  obtain ⟨hp, hc⟩ := hw.scheduled hl hs
  rcases h with ⟨hf, -⟩ | ⟨-, ⟨-, rfl⟩ | ⟨cooldown, -, ⟨hlt, -⟩ | ⟨c, -, ⟨hlt, -⟩ | ⟨p, -, h⟩⟩⟩⟩
  · exact absurd (UInt8.lt_iff_toNat_lt.2 (show (1 : UInt8).toNat < _ from hc)) hf
  · simp
  · omega
  · omega
  · cases h

theorem cancel_error (hw : GuardiansSound w)
    (h : cancelGuardianRemovalHandler k now signer w = .error e) :
    e ≠ .dominion .arithmeticOverflow := by
  simp only [cancelGuardianRemovalHandler, bind_error, existing_ok, existing_error, require_ok,
    require_error, exists_unit] at h
  rcases h with ⟨-, rfl⟩ | ⟨g, hl, ⟨-, rfl⟩ | ⟨-, ⟨-, rfl⟩ | ⟨hs, h⟩⟩⟩
  · simp
  · simp
  · simp
  have hsub : checkedSub w.config.pendingRemovalCount 1 ≠ none := fun hn => by
    have := checkedSub_eq_none.1 hn
    simp only [word_uint8, UInt8.toNat_one] at this
    have := (hw.scheduled hl hs).1
    omega
  split_ifs at h
  all_goals simp only [bind_error, orOverflow_ok, orOverflow_error, require_ok, require_error, hsub,
    false_and, false_or, exists_unit] at h
  · rcases h with h | ⟨_, _, _, _, h⟩ <;> cases h
  · rcases h with h | ⟨_, _, _, _, h⟩ <;> cases h
  · rcases h with ⟨-, rfl⟩ | ⟨-, h | ⟨_, _, _, _, h⟩⟩
    · simp
    · cases h
    · cases h
  · rcases h with h | ⟨_, h, -⟩
    · rw [← Except.error.inj h]; simp
    · cases h

end Errors

/-- In every state reached by a clock after the epoch the guardian set is sound, and no finalize or
cancel of a removal fails for the floor or for a counter. -/
theorem guardian_set {rt : Runtime} {now₀ : ℤ} {w₀ w : World} {es : List Entry}
    (h₀ : Initialized rt now₀ w₀) (run : Run rt w₀ es w) (hclock : ClockPositive now₀ es) :
    GuardianSet w ∧
      (∀ k now e, finalizeGuardianRemovalHandler k now w = .error e →
        e ≠ .dominion .guardianFloorBreached ∧ e ≠ .dominion .arithmeticOverflow) ∧
      ∀ k now signer e, cancelGuardianRemovalHandler k now signer w = .error e →
        e ≠ .dominion .arithmeticOverflow := by
  have hw := guardiansSound_of_run h₀ run hclock
  exact ⟨hw.guardianSet, fun _ _ _ h => finalize_error hw h, fun _ _ _ _ h => cancel_error hw h⟩

/-- A second guardian joins, and the first one's removal is scheduled and finalized. -/
def guardianCalls : List Call :=
  [Reference.callAt 3000 Reference.admin (.addGuardian (Reference.key 10)),
    Reference.callAt 4000 Reference.admin (.removeGuardian Reference.guardian),
    Reference.callAt 90400 Reference.user (.finalizeGuardianRemoval Reference.guardian)]

theorem guardian_set_guardianCalls :
    GuardianSet (Reference.final Reference.runtime Reference.start guardianCalls) :=
  (guardian_set Reference.initialized_start (Reference.run_of_succeeds (by decide +kernel))
    ⟨by decide, Reference.forall_entries (p := fun c => 0 < c.now) (by decide)⟩).1

end DominionSilver
