import DominionSilver.Library.Contests
import DominionSilver.Proofs.Bounds
import DominionSilver.Proofs.Guardians
import DominionSilver.Proofs.Removal

/-! The eviction of a guardian that resists it. The admin clears the notices,
fills a second seat, and gives notice twice: the guardian can veto one of the
two. With a single seat it cannot be evicted at all. -/

namespace DominionSilver

open Checked Bytes Tokens Contest

/-- A state at a time. -/
structure Moment where
  now : ℤ
  world : World

section Defs

variable (rt : Runtime) (g : Pubkey)

/-- A call at its time. Where it fails, only the time passes. -/
def Submission (m : Moment) (c : Call) (m' : Moment) : Prop :=
  m.now ≤ c.now ∧ m'.now = c.now ∧ (exec rt c m.world = .ok m'.world ∨
    (∀ w, exec rt c m.world ≠ .ok w) ∧ m'.world = m.world)

/-- A `cancel_guardian_removal` that `g` signs, at this time or later, and that succeeds. -/
def Insertion (m m' : Moment) : Prop :=
  ∃ c k, c.ix = .cancelGuardianRemoval k ∧ c.signer = g ∧ m.now ≤ c.now ∧ m'.now = c.now ∧
    exec rt c m.world = .ok m'.world

/-- Open to every signer. A cancel is, once the notice has expired. -/
def permissionless : Instruction → Bool
  | .mintSilv .. | .redeemSilv .. | .depositUsdc .. | .finalizeGuardianRemoval _
  | .cancelGuardianRemoval _ => true
  | _ => false

/-- From the time `t` on there is a plan of calls that the admin signs or anyone may make, after
which `g` is inactive and a guardian is left, whatever `g` inserts. -/
def Evictable (t : ℤ) (w : World) : Prop :=
  ∃ plan : List Call, (t :: plan.map Call.now).Pairwise (· ≤ ·) ∧
    (∀ c ∈ plan, c.signer = w.config.admin ∨ permissionless c.ix = true) ∧
    ∀ m, Play (Submission rt) (Insertion rt g) ⟨t, w⟩ plan m →
      ¬ Active g m.world ∧ 1 ≤ m.world.config.guardianCount

end Defs

section Succeed

variable {rt : Runtime} {c : Call} {w : World} {k : Pubkey} {h : GuardianAccount}

theorem cancel_succeeds (hw : GuardiansSound w) (hown : OwnKeys w)
    (hsign : rt.canSign c.signer = true) (hix : c.ix = .cancelGuardianRemoval k)
    (hadmin : c.signer = w.config.admin) (hl : w.guardians.lookup k = some h)
    (hp : h.pendingRemovalAt ≠ 0) : ∃ w', exec rt c w = .ok w' := by
  obtain ⟨p, hsub⟩ : ∃ p, checkedSub w.config.pendingRemovalCount 1 = some p :=
    exists_checkedSub (hw.scheduled hl hp).1
  simp only [exec, hix, dispatch, cancelGuardianRemovalHandler, bind_ok, constrain_ok, existing_ok,
    require_ok, exists_unit]
  apply Exists.intro
  refine ⟨hsign, h, hl, hown k h hl, hp, ?_⟩
  rw [if_pos hadmin, ite_self]
  simp only [bind_ok, orOverflow_ok, pure_ok]
  exact ⟨_, rfl, p, hsub, rfl⟩

theorem remove_succeeds (hown : OwnKeys w) (hsign : rt.canSign c.signer = true)
    (hix : c.ix = .removeGuardian k) (hadmin : w.config.admin = c.signer)
    (hl : w.guardians.lookup k = some h) (hactive : h.cooldownUntil = 0)
    (hp : h.pendingRemovalAt = 0)
    (hmay : w.config.pendingRemovalCount.toNat + 2 ≤ w.config.guardianCount.toNat)
    (hroom : I64 (c.now + w.config.adminTimelockSeconds.toNat)) :
    ∃ w', exec rt c w = .ok w' := by
  have hcount := w.config.guardianCount.toNat_lt
  obtain ⟨p, hadd⟩ : ∃ p, checkedAdd w.config.pendingRemovalCount 1 = some p :=
    exists_checkedAdd (by simp only [word_uint8, UInt8.toNat_one]; change _ < 256; omega)
  have hsched : mayScheduleRemoval w.config.guardianCount w.config.pendingRemovalCount = true := by
    have hsub := toNat_saturatingSub w.config.guardianCount w.config.pendingRemovalCount
    simp only [word_uint8] at hsub
    refine decide_eq_true (UInt8.lt_iff_toNat_lt.2 ?_)
    simp only [activeNotPending, hsub, UInt8.toNat_one]
    omega
  simp only [exec, hix, dispatch, removeGuardianHandler, bind_ok, constrain_ok, requireAdmin_ok,
    existing_ok, require_ok, orOverflow_ok, checkedI64_eq_some, exists_unit]
  apply Exists.intro
  refine ⟨hsign, hadmin, h, hl, hown k h hl, hactive, .inl hp, _, ⟨hroom, rfl⟩, ?_⟩
  rw [if_pos hp]
  simp only [bind_ok, require_ok, orOverflow_ok, exists_unit, pure_ok]
  exact ⟨hsched, p, hadd, rfl⟩

theorem finalize_succeeds (hw : GuardiansSound w) (hown : OwnKeys w)
    (hsign : rt.canSign c.signer = true) (hix : c.ix = .finalizeGuardianRemoval k)
    (hl : w.guardians.lookup k = some h) (hp : h.pendingRemovalAt ≠ 0)
    (hdue : h.pendingRemovalAt ≤ c.now)
    (htime : removalScheduleExpired h.pendingRemovalAt c.now = false)
    (hroom : I64 (c.now + GUARDIAN_REMOVE_COOLDOWN_SECONDS)) : ∃ w', exec rt c w = .ok w' := by
  obtain ⟨hpending, hcount⟩ := hw.scheduled hl hp
  obtain ⟨p, hsub⟩ : ∃ p, checkedSub w.config.pendingRemovalCount 1 = some p :=
    exists_checkedSub hpending
  obtain ⟨n, hsub'⟩ : ∃ n, checkedSub w.config.guardianCount 1 = some n :=
    exists_checkedSub (by simp only [word_uint8, UInt8.toNat_one]; omega)
  have hfloor : MIN_ACTIVE_GUARDIANS < w.config.guardianCount :=
    UInt8.lt_iff_toNat_lt.2 (show (1 : UInt8).toNat < _ from hcount)
  simp only [exec, hix, dispatch, finalizeGuardianRemovalHandler, bind_ok, constrain_ok,
    existing_ok, require_ok, okOr_ok, orOverflow_ok, checkedI64_eq_some, exists_unit, pure_ok]
  exact ⟨_, hsign, h, hl, hown k h hl, hw.active k h hl hp, hp, hdue, htime, hfloor, _,
    ⟨hroom, rfl⟩, n, hsub', p, hsub, rfl⟩

theorem add_succeeds (hsign : rt.canSign c.signer = true) (hix : c.ix = .addGuardian k)
    (hadmin : w.config.admin = c.signer) (hk : k ≠ w.config.admin)
    (hpending : w.config.pendingAdmin ≠ some k)
    (hcool : (guardianAt w k).cooldownUntil ≤ c.now)
    (hidle : (guardianAt w k).addedAt = 0 ∨ (guardianAt w k).cooldownUntil ≠ 0)
    (hunscheduled : (guardianAt w k).pendingRemovalAt = 0)
    (hroom : w.config.guardianCount < w.config.maxGuardianCount) :
    ∃ w', exec rt c w = .ok w' := by
  simp only [guardianAt] at hcool hidle hunscheduled
  have hidle' : ¬ (((w.guardians.lookup k).getD GuardianAccount.zeroed).addedAt ≠ 0 ∧
      ((w.guardians.lookup k).getD GuardianAccount.zeroed).cooldownUntil = 0) := by
    rintro ⟨h1, h2⟩
    exact hidle.elim h1 fun h => h h2
  simp only [exec, hix, dispatch, addGuardianHandler, bind_ok, constrain_ok, requireAdmin_ok,
    require_ok, exists_unit, pure_ok]
  exact ⟨_, hsign, hadmin, hk, hpending, .inr hcool, hidle', hroom, hunscheduled, rfl⟩

end Succeed

section Stages

/-- No guardian is under notice. -/
def NoNotice (w : World) : Prop :=
  ∀ k h, w.guardians.lookup k = some h → h.pendingRemovalAt = 0

/-- `g` is active under the admin `a`, whose notices run for `s` seconds. -/
structure Rogue (g a : Pubkey) (s : UInt32) (w : World) : Prop where
  sound : GuardiansSound w
  own : OwnKeys w
  admin : w.config.admin = a
  seconds : w.config.adminTimelockSeconds = s
  active : Active g w

/-- `y` may be appointed from the time `t` on, if a seat is free. -/
structure Candidate (y : Pubkey) (t : ℤ) (w : World) : Prop where
  seats : w.config.maxGuardianCount ≠ 1
  notAdmin : y ≠ w.config.admin
  notPending : w.config.pendingAdmin ≠ some y
  cooled : ∀ h, w.guardians.lookup y = some h → h.cooldownUntil ≤ t

/-- Nobody is under notice and somebody else is active; `spent` if `g` has had its veto. -/
structure Cornered (g a : Pubkey) (s : UInt32) (spent : Bool) (w : World) : Prop where
  rogue : Rogue g a s w
  quiet : NoNotice w
  spare : 2 ≤ w.config.guardianCount.toNat
  veto : spent = true → Spent g w

/-- `g` alone is under notice, for the time `eta`. -/
structure Noticed (g a : Pubkey) (s : UInt32) (spent : Bool) (eta : ℤ) (w : World) : Prop where
  rogue : Rogue g a s w
  given : ∃ h, w.guardians.lookup g = some h ∧ h.pendingRemovalAt = eta
  alone : ∀ k h, k ≠ g → w.guardians.lookup k = some h → h.pendingRemovalAt = 0
  spare : 2 ≤ w.config.guardianCount.toNat
  veto : spent = true → Spent g w

structure Evicted (g : Pubkey) (w : World) : Prop where
  sound : GuardiansSound w
  inactive : ¬ Active g w

variable {rt : Runtime} {g a y k signer : Pubkey} {s : UInt32} {spent : Bool} {now eta t : ℤ}
  {w w' : World}

theorem NoNotice.not_cancel (hw : NoNotice w) :
    ¬ Effect rt now signer w (.cancelGuardianRemoval k) w' := by
  intro he
  cases he with
  | cancelGuardianRemoval found _ scheduled => exact scheduled (hw _ _ found)

theorem NoNotice.pending (hw : NoNotice w) (hs : GuardiansSound w) :
    w.config.pendingRemovalCount.toNat = 0 := by
  rw [hs.pending]
  refine Accounts.countWhere_eq_zero ?_
  intro k h hl
  simp [GuardianAccount.isScheduled, hw k h hl]

theorem lookup_of_cancel {j : Pubkey} {h' : GuardianAccount}
    (he : Effect rt now signer w (.cancelGuardianRemoval k) w')
    (hl : w'.guardians.lookup j = some h') :
    ∃ h, w.guardians.lookup j = some h ∧ h'.cooldownUntil = h.cooldownUntil ∧
      (h'.pendingRemovalAt = 0 ∨ j ≠ k ∧ h'.pendingRemovalAt = h.pendingRemovalAt) := by
  cases he with
  | cancelGuardianRemoval found =>
    by_cases hj : j = k
    · subst hj
      rw [Finmap.lookup_insert] at hl
      obtain rfl := Option.some.inj hl
      exact ⟨_, found, rfl, .inl rfl⟩
    · rw [Finmap.lookup_insert_of_ne _ hj] at hl
      exact ⟨h', hl, rfl, .inr ⟨hj, rfl⟩⟩

/-- The four instructions on guardians leave the admin, its transfer, its timelock and the number
of seats alone. -/
theorem config_of_guardianOf {ix : Instruction} (he : Effect rt now signer w ix w')
    (hix : guardianOf ix = some k) : w'.config.admin = w.config.admin ∧
      w'.config.pendingAdmin = w.config.pendingAdmin ∧
      w'.config.adminTimelockSeconds = w.config.adminTimelockSeconds ∧
      w'.config.maxGuardianCount = w.config.maxGuardianCount := by
  rcases guardianOf_eq_some hix with rfl | rfl | rfl | rfl
  all_goals cases he; exact ⟨rfl, rfl, rfl, rfl⟩

theorem Rogue.step {c : Call} (hw : Rogue g a s w) (h : exec rt c w = .ok w')
    (hix : guardianOf c.ix = some k) (hf : c.ix ≠ .finalizeGuardianRemoval g)
    (hs : GuardiansSound w') : Rogue g a s w' := by
  obtain ⟨hadmin, -, hseconds, -⟩ := config_of_guardianOf (effect_of_exec h).2 hix
  refine ⟨hs, hw.own.step (e := .call c) h, hadmin.trans hw.admin, hseconds.trans hw.seconds, ?_⟩
  refine hw.active.step (e := .call c) h ?_
  rintro ⟨d, hd, hfin⟩
  obtain rfl := Event.call.inj hd
  exact hf hfin

theorem Rogue.cancel {c : Call} (hw : Rogue g a s w) (h : exec rt c w = .ok w')
    (hix : c.ix = .cancelGuardianRemoval k) : Rogue g a s w' := by
  have he := effect_of_call h hix
  refine hw.step (k := k) h ?_ ?_ (hw.sound.cancelGuardianRemoval he)
  · rw [hix]; rfl
  · rw [hix]; exact nofun

theorem Candidate.cancel (hw : Candidate y t w)
    (he : Effect rt now signer w (.cancelGuardianRemoval k) w') : Candidate y t w' := by
  obtain ⟨hadmin, hpending, -, hseats⟩ := config_of_guardianOf he rfl
  refine ⟨hseats ▸ hw.seats, hadmin ▸ hw.notAdmin, hpending ▸ hw.notPending, ?_⟩
  intro h' hl
  obtain ⟨h, hl, hcool, -⟩ := lookup_of_cancel he hl
  exact hcool ▸ hw.cooled h hl

theorem Evicted.cancel (hw : Evicted g w)
    (he : Effect rt now signer w (.cancelGuardianRemoval k) w') : Evicted g w' := by
  refine ⟨hw.sound.cancelGuardianRemoval he, ?_⟩
  rintro ⟨h', hl, hactive⟩
  obtain ⟨h, hl, hcool, -⟩ := lookup_of_cancel he hl
  exact hw.inactive ⟨h, hl, hcool ▸ hactive⟩

theorem Evicted.refuses {ix : Instruction} (hw : Evicted g w)
    (hix : ix = .removeGuardian g ∨ ix = .finalizeGuardianRemoval g) :
    ¬ Effect rt now signer w ix w' := by
  intro he
  rcases hix with rfl | rfl
  · cases he with
    | removeGuardian _ found _ active => exact hw.inactive ⟨_, found, active⟩
  · cases he with
    | finalizeGuardianRemoval found _ active => exact hw.inactive ⟨_, found, active⟩

theorem removalScheduleExpired_of_le (hle : now ≤ eta) (hnow : I64 now) :
    removalScheduleExpired eta now = false := by
  have hlt : ¬ saturatingI64 (eta + GUARDIAN_REMOVAL_EXEC_WINDOW_SECONDS) < now := by
    have hmax := hnow.2
    unfold saturatingI64
    simp only [GUARDIAN_REMOVAL_EXEC_WINDOW_SECONDS]
    omega
  simp [removalScheduleExpired, hlt]

theorem noticed_of_remove {c : Call} (hw : Cornered g a s spent w) (hnow : 0 < c.now)
    (h : exec rt c w = .ok w') (hix : c.ix = .removeGuardian g) :
    Noticed g a s spent (c.now + s.toNat) w' := by
  have he := (effect_of_exec h).2
  have hrogue : Rogue g a s w' := hw.rogue.step (k := g) h (by rw [hix]; rfl)
    (by rw [hix]; exact nofun) (hw.rogue.sound.effect hnow he)
  have hveto : spent = true → Spent g w' := by
    intro hs
    refine (hw.veto hs).step (e := .call c) h ?_
    rintro ⟨d, hd, happ⟩
    obtain rfl := Event.call.inj hd
    rw [hix] at happ
    cases happ
  have hquiet := hw.quiet
  have hseconds := hw.rogue.seconds
  have hspare := hw.spare
  rw [hix] at he
  cases he with
  | removeGuardian _ _ _ _ delay =>
    refine ⟨hrogue, ⟨_, Finmap.lookup_insert _, by rw [delay, hseconds]⟩, ?_, hspare, hveto⟩
    intro j h' hj hl
    rw [Finmap.lookup_insert_of_ne _ hj] at hl
    exact hquiet j h' hl

theorem evicted_of_finalize (hw : GuardiansSound w) (hnow : 0 < now)
    (he : Effect rt now signer w (.finalizeGuardianRemoval g) w') : Evicted g w' := by
  refine ⟨hw.finalizeGuardianRemoval hnow he, ?_⟩
  cases he with
  | finalizeGuardianRemoval _ _ _ _ _ _ _ cooldown =>
    rintro ⟨h, hl, hactive⟩
    rw [Finmap.lookup_insert] at hl
    obtain rfl := Option.some.inj hl
    have hzero := cooldown.symm.trans hactive
    simp only [GUARDIAN_REMOVE_COOLDOWN_SECONDS] at hzero
    omega

theorem cornered_of_veto {c : Call} (hw : Noticed g a s spent eta w) (hga : g ≠ a)
    (h : exec rt c w = .ok w') (hix : c.ix = .cancelGuardianRemoval k) (hsigner : c.signer = g)
    (hlate : c.now ≤ eta) : spent = false ∧ Cornered g a s true w' := by
  have he := (effect_of_exec h).2
  have hrogue := hw.rogue.cancel h hix
  obtain ⟨h₀, hl₀, rfl⟩ := hw.given
  rw [hix] at he
  cases he with
  | @cancelGuardianRemoval k g' used p found own scheduled auth =>
    have hk : k = g := by
      by_contra hk
      exact scheduled (hw.alone _ _ hk found)
    subst hk
    obtain rfl := Option.some.inj (hl₀.symm.trans found)
    rcases auth with ⟨-, hexp | hadmin⟩ | ⟨hused, -, hunused⟩
    · rw [removalScheduleExpired_of_le hlate c.now_i64] at hexp
      cases hexp
    · exact absurd (hsigner.symm.trans (hadmin.trans hw.rogue.admin)) hga
    · constructor
      · by_contra hs
        obtain ⟨h', hl', hu⟩ := hw.veto (Bool.eq_true_of_not_eq_false hs)
        obtain rfl := Option.some.inj (hl₀.symm.trans hl')
        rw [hunused] at hu
        cases hu
      · refine ⟨hrogue, ?_, hw.spare, fun _ => ⟨_, Finmap.lookup_insert _, hused⟩⟩
        intro j h' hl
        by_cases hj : j = k
        · rw [hj, Finmap.lookup_insert] at hl
          rw [← Option.some.inj hl]
        · rw [Finmap.lookup_insert_of_ne _ hj] at hl
          exact hw.alone j h' hj hl

theorem cornered_of_add {c : Call} (hw : Rogue g a s w) (hq : NoNotice w) (hnow : 0 < c.now)
    (h : exec rt c w = .ok w') (hix : c.ix = .addGuardian y) : Cornered g a s false w' := by
  have he := (effect_of_exec h).2
  have hrogue : Rogue g a s w' := hw.step (k := y) h (by rw [hix]; rfl)
    (by rw [hix]; exact nofun) (hw.sound.effect hnow he)
  have hfloor := hw.sound.floor
  rw [hix] at he
  cases he with
  | addGuardian _ _ _ _ _ room unscheduled =>
    refine ⟨hrogue, ?_, ?_, nofun⟩
    · exact Accounts.forall_insert hq unscheduled
    · have hcount := guardianCount_succ room
      simp only [hcount]
      omega

theorem guardianAt_elim {p : GuardianAccount → Prop} (hnone : p GuardianAccount.zeroed)
    (hsome : ∀ h, w.guardians.lookup y = some h → p h) : p (guardianAt w y) := by
  unfold guardianAt
  cases hl : w.guardians.lookup y with
  | none => exact hnone
  | some h => exact hsome h hl

/-- With two seats or more, nobody can be added only where a second guardian is active already. -/
theorem cornered_of_refused {c : Call} (hw : Rogue g a s w) (hq : NoNotice w) (hnow : 0 < c.now)
    (hc : Candidate y c.now w) (hy : y ≠ g)
    (hsign : rt.canSign c.signer = true) (hadmin : c.signer = a) (hix : c.ix = .addGuardian y)
    (hfail : ∀ w', exec rt c w ≠ .ok w') : Cornered g a s false w := by
  refine ⟨hw, hq, ?_, nofun⟩
  by_contra hlt
  have hfloor := hw.sound.floor
  have hceil := hw.sound.ceiling
  have hseats' : w.config.maxGuardianCount.toNat ≠ 1 := fun h => hc.seats (UInt8.toNat_inj.1 h)
  obtain ⟨h₀, hl₀, hactive⟩ := hw.active
  -- a second active account would be counted
  have hcool : ∀ h, w.guardians.lookup y = some h → h.cooldownUntil ≠ 0 := by
    intro h hl h0
    have := Accounts.one_lt_countWhere hy hl hl₀ (hw.sound.isActive hl h0)
      (hw.sound.isActive hl₀ hactive)
    have := hw.sound.count
    omega
  obtain ⟨w', hok⟩ : ∃ w', exec rt c w = .ok w' := by
    refine add_succeeds hsign hix (hw.admin.trans hadmin.symm) hc.notAdmin hc.notPending
      ?_ ?_ ?_ (UInt8.lt_iff_toNat_lt.2 (by omega))
    · exact guardianAt_elim (p := fun h => h.cooldownUntil ≤ c.now) hnow.le hc.cooled
    · exact guardianAt_elim (p := fun h => h.addedAt = 0 ∨ h.cooldownUntil ≠ 0) (.inl rfl)
        fun h hl => .inr (hcool h hl)
    · exact guardianAt_elim (p := fun h => h.pendingRemovalAt = 0) rfl (hq y)
  exact hfail w' hok

end Stages

section Plan

variable {rt : Runtime} {g a y : Pubkey} {s : UInt32} {spent : Bool} {t eta : ℤ}

/-- A notice to `g` at the time `t` and its finalize at the time `u`. -/
def noticePlan (g a : Pubkey) {t u : ℤ} (ht : I64 t) (hu : I64 u) : List Call :=
  [⟨t, ht, a, .removeGuardian g⟩, ⟨u, hu, a, .finalizeGuardianRemoval g⟩]

/-- The admin `a` cancels all notices, appoints `y` and gives `g` notice twice. -/
def evictionPlan (g a y : Pubkey) (ks : List Pubkey) {t u v : ℤ} (ht : I64 t) (hu : I64 u)
    (hv : I64 v) : List Call :=
  (ks.map fun k => ⟨t, ht, a, .cancelGuardianRemoval k⟩) ++
    ([⟨t, ht, a, .addGuardian y⟩] ++ (noticePlan g a ht hu ++ noticePlan g a hu hv))

/-- Evicted, or about to be given notice. -/
def Prepared (g a : Pubkey) (s : UInt32) (spent : Bool) (m : Moment) : Prop :=
  Evicted g m.world ∨ Cornered g a s spent m.world

/-- Evicted, or until `eta` under a notice that only the veto can have ended. -/
def Awaiting (g a : Pubkey) (s : UInt32) (spent : Bool) (eta : ℤ) (m : Moment) : Prop :=
  Evicted g m.world ∨ (m.now ≤ eta → Noticed g a s spent eta m.world ∨
    spent = false ∧ Cornered g a s true m.world)

theorem stable_evicted : Stable (Insertion rt g) fun m => Evicted g m.world := by
  rintro m m' hm ⟨c, k, hix, -, -, -, hok⟩
  have he := effect_of_call hok hix
  exact hm.cancel he

theorem stable_of_quiet {P : World → Prop} (hP : ∀ w, P w → NoNotice w) :
    Stable (Insertion rt g) fun m => P m.world := by
  rintro m m' hm ⟨c, k, hix, -, -, -, hok⟩
  have he := effect_of_call hok hix
  exact absurd he (hP _ hm).not_cancel

theorem stable_prepared : Stable (Insertion rt g) (Prepared g a s spent) :=
  stable_evicted.or (stable_of_quiet (P := Cornered g a s spent) fun _ hw => hw.quiet)

theorem stable_awaiting (hga : g ≠ a) :
    Stable (Insertion rt g) (Awaiting g a s spent eta) := by
  rintro m m' hm ⟨c, k, hix, hsigner, hle, hnow, hok⟩
  have he := effect_of_call hok hix
  rcases hm with hm | hm
  · exact .inl (hm.cancel he)
  · refine .inr fun hlate => .inr ?_
    rw [hnow] at hlate
    rcases hm (hle.trans hlate) with hm | ⟨-, hm⟩
    · exact cornered_of_veto hm hga hok hix hsigner hlate
    · exact absurd he hm.quiet.not_cancel

theorem forces_notice (spent : Bool) (hga : g ≠ a) (hsign : rt.canSign a = true) (hpos : 0 < t)
    (ht : I64 t) (hu : I64 (t + s.toNat))
    (hroom : I64 (t + s.toNat + GUARDIAN_REMOVE_COOLDOWN_SECONDS)) :
    Forces (Submission rt) (Insertion rt g) (Prepared g a s spent) (noticePlan g a ht hu)
      fun m => Evicted g m.world ∨ spent = false ∧ Cornered g a s true m.world := by
  have hstable : Stable (Insertion rt g) fun m =>
      Evicted g m.world ∨ spent = false ∧ Cornered g a s true m.world :=
    stable_evicted.or (stable_of_quiet (P := fun w => spent = false ∧ Cornered g a s true w)
      fun _ hw => hw.2.quiet)
  have hfinalize : Forces (Submission rt) (Insertion rt g) (Awaiting g a s spent (t + s.toNat))
      [⟨t + s.toNat, hu, a, .finalizeGuardianRemoval g⟩]
      fun m => Evicted g m.world ∨ spent = false ∧ Cornered g a s true m.world := by
    refine .cons (stable_awaiting hga) ?_ (.nil hstable)
    rintro m m' hm ⟨hle, -, hok | ⟨hfail, hsame⟩⟩
    · have he := (effect_of_exec hok).2
      rcases hm with hm | hm
      · exact absurd he (hm.refuses (.inr rfl))
      · refine .inl (evicted_of_finalize ?_ (by change 0 < t + (s.toNat : ℤ); omega) he)
        rcases hm hle with hm | ⟨-, hm⟩
        · exact hm.rogue.sound
        · exact hm.rogue.sound
    · rw [hsame]
      refine hm.imp_right fun hm => (hm hle).resolve_left fun hm => ?_
      obtain ⟨h, hl, heta⟩ := hm.given
      obtain ⟨w', hok⟩ := finalize_succeeds (c := ⟨t + s.toNat, hu, a, .finalizeGuardianRemoval g⟩)
        hm.rogue.sound hm.rogue.own hsign rfl hl (by rw [heta]; omega) heta.le
        (by rw [heta]; exact removalScheduleExpired_of_le le_rfl hu) hroom
      exact hfail w' hok
  refine .cons stable_prepared ?_ hfinalize
  rintro m m' hm ⟨-, -, hok | ⟨hfail, hsame⟩⟩
  · rcases hm with hm | hm
    · exact absurd (effect_of_exec hok).2 (hm.refuses (.inl rfl))
    · exact .inr fun _ => .inl (noticed_of_remove hm hpos hok rfl)
  · unfold Awaiting
    rw [hsame]
    refine hm.imp_right fun hm => ?_
    obtain ⟨h, hl, hactive⟩ := hm.rogue.active
    have hp := hm.quiet.pending hm.rogue.sound
    have hspare := hm.spare
    obtain ⟨w', hok⟩ := remove_succeeds (c := ⟨t, ht, a, .removeGuardian g⟩) hm.rogue.own hsign rfl
      hm.rogue.admin hl hactive (hm.quiet g h hl) (by omega) (by rw [hm.rogue.seconds]; exact hu)
    exact absurd hok (hfail w')

/-- What the admin clears the notices for, the accounts being under the keys `ks`. -/
def Clearing (g a y : Pubkey) (s : UInt32) (t : ℤ) (ks : List Pubkey) (w : World) : Prop :=
  Rogue g a s w ∧ Candidate y t w ∧ ∀ k h, w.guardians.lookup k = some h → k ∈ ks

def Cleared (g a y : Pubkey) (s : UInt32) (t : ℤ) (w : World) : Prop :=
  Rogue g a s w ∧ Candidate y t w ∧ NoNotice w

theorem Clearing.cancel {ks : List Pubkey} {w w' : World} {c : Call} {k : Pubkey}
    (hw : Clearing g a y s t ks w) (hix : c.ix = .cancelGuardianRemoval k)
    (hok : exec rt c w = .ok w') : Clearing g a y s t ks w' := by
  have he := effect_of_call hok hix
  refine ⟨hw.1.cancel hok hix, hw.2.1.cancel he, ?_⟩
  intro j h' hl
  obtain ⟨h, hl, -⟩ := lookup_of_cancel he hl
  exact hw.2.2 j h hl

/-- `k` is not under notice. -/
def Unnoticed (k : Pubkey) (w : World) : Prop :=
  ∀ h, w.guardians.lookup k = some h → h.pendingRemovalAt = 0

theorem Unnoticed.cancel {w w' : World} {c : Call} {j k : Pubkey} (hw : Unnoticed j w)
    (hix : c.ix = .cancelGuardianRemoval k) (hok : exec rt c w = .ok w') : Unnoticed j w' := by
  intro h' hl
  have he := effect_of_call hok hix
  obtain ⟨h, hl, -, h0 | ⟨-, hsame⟩⟩ := lookup_of_cancel he hl
  · exact h0
  · exact hsame.trans (hw h hl)

theorem unnoticed_of_submission (hsign : rt.canSign a = true) (ht : I64 t) {m m' : Moment}
    {k : Pubkey} (hm : Rogue g a s m.world)
    (hc : Submission rt m ⟨t, ht, a, .cancelGuardianRemoval k⟩ m') : Unnoticed k m'.world := by
  obtain ⟨-, -, hok | ⟨hfail, hsame⟩⟩ := hc
  · intro h' hl
    obtain ⟨h, -, -, h0 | ⟨hne, -⟩⟩ := lookup_of_cancel (effect_of_exec hok).2 hl
    · exact h0
    · exact absurd rfl hne
  · rw [hsame]
    intro h hl
    by_contra hp
    obtain ⟨w', hok⟩ := cancel_succeeds (c := ⟨t, ht, a, .cancelGuardianRemoval k⟩) hm.sound
      hm.own hsign rfl hm.admin.symm hl hp
    exact hfail w' hok

theorem forces_clear (hsign : rt.canSign a = true) (ht : I64 t) (ks : List Pubkey) :
    Forces (Submission rt) (Insertion rt g) (fun m => Clearing g a y s t ks m.world)
      (ks.map fun k => ⟨t, ht, a, .cancelGuardianRemoval k⟩)
      fun m => Cleared g a y s t m.world := by
  refine (Forces.each (D := fun k m => Unnoticed k m.world) ?_ ?_ ?_ ?_ ks).mono (fun _ h => h) ?_
  · rintro m m' hm ⟨c, k, hix, -, -, -, hok⟩
    exact hm.cancel hix hok
  · rintro k m m' ⟨hm, hd⟩ ⟨c, j, hix, -, -, -, hok⟩
    exact ⟨hm.cancel hix hok, hd.cancel hix hok⟩
  · intro k m m' hm hc
    refine ⟨?_, unnoticed_of_submission hsign ht hm.1 hc⟩
    obtain ⟨-, -, hok | ⟨-, hsame⟩⟩ := hc
    · exact hm.cancel rfl hok
    · rw [hsame]; exact hm
  · rintro j k m m' - hd ⟨-, -, hok | ⟨-, hsame⟩⟩
    · exact hd.cancel rfl hok
    · rw [hsame]; exact hd
  · rintro m ⟨⟨hw, hc, hks⟩, hd⟩
    exact ⟨hw, hc, fun k h hl => hd k (hks k h hl) h hl⟩

theorem forces_add (hsign : rt.canSign a = true) (hpos : 0 < t) (ht : I64 t) (hy : y ≠ g) :
    Forces (Submission rt) (Insertion rt g) (fun m => Cleared g a y s t m.world)
      [⟨t, ht, a, .addGuardian y⟩] (Prepared g a s false) := by
  refine .cons (stable_of_quiet fun _ hw => hw.2.2) ?_ (.nil stable_prepared)
  rintro m m' ⟨hw, hc, hq⟩ ⟨-, -, hok | ⟨hfail, hsame⟩⟩
  · exact .inr (cornered_of_add hw hq hpos hok rfl)
  · refine .inr ?_
    rw [hsame]
    exact cornered_of_refused hw hq hpos hc hy hsign rfl rfl hfail

theorem exists_candidate (g a : Pubkey) (p : Option Pubkey) : ∃ y, y ≠ g ∧ y ≠ a ∧ p ≠ some y := by
  have hlt : ({g, a, p.getD g} : Finset Pubkey).card <
      (([0, 1, 2, 3].map Reference.key).toFinset).card :=
    lt_of_le_of_lt Finset.card_le_three (by decide +kernel)
  obtain ⟨y, -, hy⟩ := Finset.exists_mem_notMem_of_card_lt_card hlt
  simp only [Finset.mem_insert, Finset.mem_singleton, not_or] at hy
  refine ⟨y, hy.1, hy.2.1, ?_⟩
  rintro rfl
  exact hy.2.2 rfl

theorem evictionPlan_signer {ks : List Pubkey} {t u v : ℤ} {ht : I64 t} {hu : I64 u} {hv : I64 v} :
    ∀ c ∈ evictionPlan g a y ks ht hu hv, c.signer = a := by
  intro c hc
  simp only [evictionPlan, noticePlan, List.mem_append, List.mem_map, List.mem_cons,
    List.not_mem_nil, or_false] at hc
  rcases hc with ⟨k, -, rfl⟩ | rfl | (rfl | rfl) | rfl | rfl
  all_goals rfl

theorem evictionPlan_chronological {ks : List Pubkey} {T t u v : ℤ} {ht : I64 t} {hu : I64 u}
    {hv : I64 v} (hT : T ≤ t) (htu : t ≤ u) (huv : u ≤ v) :
    (T :: (evictionPlan g a y ks ht hu hv).map Call.now).Pairwise (· ≤ ·) := by
  have hks : (ks.map fun k => (⟨t, ht, a, .cancelGuardianRemoval k⟩ : Call)).map Call.now =
      List.replicate ks.length t := by
    rw [List.map_map, ← List.map_const']
    rfl
  simp only [evictionPlan, noticePlan, List.map_append, hks, List.map_cons, List.map_nil]
  simp only [List.cons_append, List.nil_append, List.pairwise_cons, List.pairwise_append,
    List.pairwise_replicate, List.Pairwise.nil, List.mem_append, List.mem_cons, List.mem_replicate,
    List.not_mem_nil, ne_eq, List.length_eq_zero_iff, or_false, or_self_left, or_true, le_refl,
    forall_eq_or_imp, forall_eq, forall_eq_apply_imp_iff, and_imp, true_and, and_true, and_self,
    and_self_left, IsEmpty.forall_iff, implies_true]
  refine ⟨?_, ⟨⟨htu, htu.trans huv⟩, huv⟩, fun _ => ⟨htu, htu.trans huv⟩⟩
  rintro x (⟨-, rfl⟩ | rfl | rfl | rfl)
  all_goals omega

/-- Every cooldown is over by the time `t`. -/
def CooledBy (t : ℤ) (w : World) : Prop :=
  ∀ k h, w.guardians.lookup k = some h → h.cooldownUntil ≤ t

theorem evictable_of_seats {T : ℤ} {w : World} (hw : Rogue g a s w) (hga : g ≠ a)
    (hsign : rt.canSign a = true) (hseats : w.config.maxGuardianCount ≠ 1)
    (hcool : CooledBy t w) (hpos : 0 < t) (hT : T ≤ t) (ht : I64 t)
    (hroom : I64 (t + s.toNat + s.toNat + GUARDIAN_REMOVE_COOLDOWN_SECONDS)) :
    Evictable rt g T w := by
  obtain ⟨y, hyg, hya, hyp⟩ := exists_candidate g a w.config.pendingAdmin
  have hlow := ht.1
  simp only [GUARDIAN_REMOVE_COOLDOWN_SECONDS] at hroom
  have hmax := hroom.2
  have hu : I64 (t + s.toNat) := ⟨by omega, by omega⟩
  have hv : I64 (t + s.toNat + s.toNat) := ⟨by omega, by omega⟩
  have hfirst := forces_notice false hga hsign hpos ht hu
    ⟨by simp only [GUARDIAN_REMOVE_COOLDOWN_SECONDS]; omega,
      by simp only [GUARDIAN_REMOVE_COOLDOWN_SECONDS]; omega⟩
  have hsecond := forces_notice true hga hsign (by omega) hu hv hroom
  refine ⟨evictionPlan g a y w.guardians.keys.toList ht hu hv, ?_, ?_, ?_⟩
  · exact evictionPlan_chronological hT (by omega) (by omega)
  · intro c hc
    exact .inl ((evictionPlan_signer c hc).trans hw.admin.symm)
  intro m play
  have hplan := (forces_clear hsign ht w.guardians.keys.toList).append
    ((forces_add hsign hpos ht hyg).append ((hfirst.mono (fun _ h => h)
      fun _ h => h.imp_right (·.2)).append hsecond))
  have hknown : ∀ k h, w.guardians.lookup k = some h → k ∈ w.guardians.keys.toList := by
    intro k h hl
    rw [Finset.mem_toList, Finmap.mem_keys, ← Finmap.lookup_isSome, hl]
    rfl
  rcases hplan _ m ⟨hw, ⟨hseats, hw.admin ▸ hya, hyp, hcool y⟩, hknown⟩ play with hm | ⟨hm, -⟩
  · exact ⟨hm.inactive, hm.sound.guardianSet.range.1⟩
  · cases hm

end Plan

section Seats

variable {rt : Runtime} {g : Pubkey} {now : ℤ} {signer : Pubkey} {w w' : World} {ix : Instruction}

theorem maxGuardianCount_of_effect (he : Effect rt now signer w ix w') :
    w'.config.maxGuardianCount = w.config.maxGuardianCount := by
  cases ix with
  | execute k n rent ata =>
    cases he with
    | execute _ _ _ applied => exact (SameRoles.applied applied).maxGuardianCount
  | initializeAgain => cases he
  | _ => cases he; rfl

/-- `g` is active on the only seat. -/
structure Seated (g : Pubkey) (w : World) : Prop where
  sound : GuardiansSound w
  only : w.config.maxGuardianCount = 1
  active : Active g w

theorem Seated.step {c : Call} (hw : Seated g w) (hnow : 0 < c.now) (h : exec rt c w = .ok w') :
    Seated g w' := by
  have he := (effect_of_exec h).2
  refine ⟨hw.sound.effect hnow he, (maxGuardianCount_of_effect he).trans hw.only, ?_⟩
  refine hw.active.step (e := .call c) h ?_
  rintro ⟨d, hd, hix⟩
  obtain rfl := Event.call.inj hd
  rw [hix] at he
  have hceil := hw.sound.ceiling
  rw [hw.only, UInt8.toNat_one] at hceil
  cases he with
  | finalizeGuardianRemoval _ _ _ _ _ _ floor =>
    have hfloor := UInt8.lt_iff_toNat_lt.1 floor
    rw [UInt8.toNat_one] at hfloor
    omega

theorem exists_submission {c : Call} {m : Moment} (h : m.now ≤ c.now) :
    ∃ m', Submission rt m c m' := by
  cases hr : exec rt c m.world with
  | ok w => exact ⟨⟨c.now, w⟩, h, rfl, .inl hr⟩
  | error e =>
    refine ⟨⟨c.now, m.world⟩, h, rfl, .inr ⟨?_, rfl⟩⟩
    intro w hok
    rw [hr] at hok
    cases hok

theorem exists_play {plan : List Call} {m : Moment}
    (h : (m.now :: plan.map Call.now).Pairwise (· ≤ ·)) :
    ∃ m', Play (Submission rt) (Insertion rt g) m plan m' := by
  induction plan generalizing m with
  | nil => exact ⟨m, .done⟩
  | cons c plan ih =>
    rw [List.map_cons, List.pairwise_cons] at h
    obtain ⟨m₁, made⟩ : ∃ m₁, Submission rt m c m₁ :=
      exists_submission (h.1 c.now List.mem_cons_self)
    obtain ⟨m', rest⟩ := ih (m := m₁) (made.2.1 ▸ h.2)
    exact ⟨m', .move made rest⟩

theorem not_evictable_of_seated {t : ℤ} (hw : Seated g w) (ht : 0 < t) : ¬ Evictable rt g t w := by
  rintro ⟨plan, hchron, -, hplan⟩
  obtain ⟨m, play⟩ : ∃ m, Play (Submission rt) (Insertion rt g) ⟨t, w⟩ plan m := exists_play hchron
  have hseated : 0 < m.now ∧ Seated g m.world := by
    refine play.invariant (P := fun m => 0 < m.now ∧ Seated g m.world) ?_ ?_ ⟨ht, hw⟩
    · rintro m m' ⟨hpos, hm⟩ ⟨c, k, -, -, hle, hnow, hok⟩
      have hc : 0 < c.now := hpos.trans_le hle
      exact ⟨hnow ▸ hc, hm.step hc hok⟩
    · rintro c - m m' ⟨hpos, hm⟩ ⟨hle, hnow, hok | ⟨-, hsame⟩⟩
      · have hc : 0 < c.now := hpos.trans_le hle
        exact ⟨hnow ▸ hc, hm.step hc hok⟩
      · exact ⟨hnow ▸ hpos.trans_le hle, hsame ▸ hm⟩
  exact (hplan m play).1 hseated.2.active

end Seats

section Runs

variable {rt : Runtime} {now₀ T t : ℤ} {w₀ w w' : World} {es : List Entry} {e : Event} {g : Pubkey}

theorem CooledBy.step (hw : CooledBy t w) (h : Step rt w e w') (hzero : 0 ≤ t)
    (ht : ¬ ∃ c, e = .call c ∧ t < c.now + GUARDIAN_REMOVE_COOLDOWN_SECONDS) : CooledBy t w' := by
  intro j h' hl
  rcases guardian_cases h j with ⟨c, g, rfl, hl', hr⟩ | ⟨-, hk⟩
  · obtain rfl := Option.some.inj (hl'.symm.trans hl)
    cases hr with
    | add => exact hzero
    | @remove g _ found => exact hw j g found
    | finalize => exact not_lt.1 fun hlt => ht ⟨c, rfl, hlt⟩
    | @cancel g _ _ found => exact hw j g found
  · exact hw j h' (hk ▸ hl)

/-- The deployment and every instruction of a run have read the clock by the time `T`. -/
def ClockBy (T now₀ : ℤ) (es : List Entry) : Prop :=
  now₀ ≤ T ∧ ∀ r ∈ es, ∀ c, r.event = .call c → c.now ≤ T

theorem cooledBy_of_run (h₀ : Initialized rt now₀ w₀) (run : Run rt w₀ es w)
    (hT : ClockBy T now₀ es) (hzero : 0 ≤ T) :
    CooledBy (T + GUARDIAN_REMOVE_COOLDOWN_SECONDS) w := by
  have hpos : 0 ≤ T + GUARDIAN_REMOVE_COOLDOWN_SECONDS := add_nonneg hzero (by decide)
  refine run.kept (q := fun x => ∃ c, x.event = .call c ∧
    T + GUARDIAN_REMOVE_COOLDOWN_SECONDS < c.now + GUARDIAN_REMOVE_COOLDOWN_SECONDS) ?_
    (fun hw hs ht => hw.step hs hpos ht) ?_
  · intro k h hl
    rw [account_initial h₀ hl]
    exact hpos
  · rintro x hx ⟨c, hc, hlt⟩
    have hle := hT.2 x hx c hc
    omega

theorem maxGuardianCount_of_run (run : Run rt w₀ es w) :
    w.config.maxGuardianCount = w₀.config.maxGuardianCount := by
  refine run.invariant
    (I := fun w => w.config.maxGuardianCount = w₀.config.maxGuardianCount) rfl ?_
  intro w e w' hw h
  rcases step_cases h with ⟨c, rfl, -, he⟩ | ⟨rfl, he⟩
  · exact (maxGuardianCount_of_effect he).trans hw
  · rw [he.config]
    exact hw

/-- An active guardian that is not the admin can be evicted from every state of a run, unless the
deployment provides for a single seat. -/
theorem evictable_iff (h₀ : Initialized rt now₀ w₀) (run : Run rt w₀ es w)
    (hclock : ClockPositive now₀ es) (hT : ClockBy T now₀ es)
    (hroom : I64 (T + 2 * (ADMIN_TIMELOCK_MAX_SECONDS.toNat + GUARDIAN_REMOVE_COOLDOWN_SECONDS)))
    (hsign : rt.canSign w.config.admin = true) (hactive : Active g w)
    (hga : g ≠ w.config.admin) :
    Evictable rt g T w ↔ w₀.config.maxGuardianCount ≠ 1 := by
  have hpos : 0 < T := hclock.1.trans_le hT.1
  have hsound := guardiansSound_of_run h₀ run hclock
  rw [← maxGuardianCount_of_run run]
  constructor
  · rintro hev hone
    exact not_evictable_of_seated ⟨hsound, hone, hactive⟩ hpos hev
  · intro hseats
    have hown : OwnKeys w := run.invariant (ownKeys_initial h₀) OwnKeys.step
    have hmax := UInt32.le_iff_toNat_le.1
      (bounded_of_reachable ⟨now₀, w₀, es, h₀, run⟩).adminTimelockSeconds.2
    have hcool := cooledBy_of_run h₀ run hT hpos.le
    have hlast := hroom.2
    simp only [ADMIN_TIMELOCK_MAX_SECONDS, GUARDIAN_REMOVE_COOLDOWN_SECONDS, UInt32.reduceToNat]
      at hmax hlast hcool
    refine evictable_of_seats (t := T + 3600) ⟨hsound, hown, rfl, rfl, hactive⟩ hga hsign hseats
      hcool (by omega) (by omega) ⟨by omega, by omega⟩ ?_
    simp only [GUARDIAN_REMOVE_COOLDOWN_SECONDS]
    exact ⟨by omega, by omega⟩

end Runs

/-- A second guardian joins, and the first one vetoes its removal. -/
def rotationCalls : List Call :=
  [Reference.callAt 3000 Reference.admin (.addGuardian (Reference.key 10)),
    Reference.callAt 4000 Reference.admin (.removeGuardian Reference.guardian),
    Reference.callAt 5000 Reference.guardian (.cancelGuardianRemoval Reference.guardian)]

theorem evictable_iff_rotationCalls :
    Evictable Reference.runtime Reference.guardian 5000
      (Reference.final Reference.runtime Reference.start rotationCalls) :=
  (evictable_iff Reference.initialized_start
    (@Reference.run_of_succeeds _ _ rotationCalls (by decide +kernel))
    ⟨by decide, Reference.forall_entries (p := fun c => 0 < c.now) (by decide)⟩
    ⟨by decide, Reference.forall_entries (p := fun c => c.now ≤ 5000) (by decide)⟩
    (by decide) (by decide +kernel)
    ⟨⟨Reference.guardian, 1000, 0, 0, true⟩, by decide +kernel, rfl⟩ (by decide +kernel)).2
    (by decide +kernel)

/-- The deployment with a single seat for guardians. -/
def singleSeat : Result World :=
  initializeHandler Reference.runtime { Reference.initializeArgs with maxGuardianCount := 1 } 1000
    (Reference.key 9) Reference.genesis

def singleSeatStart : World := singleSeat.toOption.get (by decide)

theorem not_evictable_singleSeatStart :
    Initialized Reference.runtime 1000 singleSeatStart ∧
      Active Reference.guardian singleSeatStart ∧
      Reference.guardian ≠ singleSeatStart.config.admin ∧
      Reference.runtime.canSign singleSeatStart.config.admin = true ∧
      ¬ Evictable Reference.runtime Reference.guardian 1000 singleSeatStart := by
  have hinit : Initialized Reference.runtime 1000 singleSeatStart :=
    ⟨by decide, _, _, _, Reference.vaultsSound_genesis, Reference.ok_get (by decide)⟩
  have hactive : Active Reference.guardian singleSeatStart :=
    ⟨⟨Reference.guardian, 1000, 0, 0, false⟩, by decide +kernel, rfl⟩
  refine ⟨hinit, hactive, by decide +kernel, by decide +kernel, ?_⟩
  exact not_evictable_of_seated
    ⟨guardiansSound_initial hinit (by decide), by decide +kernel, hactive⟩ (by decide)

end DominionSilver
