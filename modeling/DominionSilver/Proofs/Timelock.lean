import DominionSilver.Library.Registry
import DominionSilver.Sanity.Reference

/-! The timelock queue as a registry of announced changes. Every instruction is a
step of the registry: a propose announces, an execute carries out, a cancel
closes, and the instant closes disarm. -/

namespace DominionSilver

open Checked Bytes Tokens

abbrev Notices := Registry UInt64 TimelockAction Change

/-- The announced changes: every live account's, read back from its bytes. -/
def announced (w : World) (n : UInt64) : Option (Proposal TimelockAction Change) :=
  (w.timelocks.lookup n).bind fun tl => (TimelockAction.ofDisc? tl.actionDisc).bind fun k =>
    (decodeChange k tl.actionData).map fun change => ⟨k, change, tl.executableAt⟩

def notices (w : World) : Notices :=
  ⟨announced w, w.config.pendingNonce, {n | n < w.config.nextTimelockNonce}⟩

/-- The slot that an instant close empties. -/
def instantClose : Instruction → Option TimelockAction
  | .setPublicMintEnabled _ => some .setPublicMint
  | .setRedemptionsEnabled _ => some .setRedeemLimits
  | .emergencyTightenRedeemLimits args =>
      if args.redemptionsEnabled.isSome then some .setRedeemLimits else none
  | _ => none

/-- What an instruction does to the registry. -/
def labelOf (now : ℤ) (w : World) : Instruction → Registry.Action UInt64 TimelockAction Change
  | .propose change => .propose w.config.nextTimelockNonce
      ⟨change.kind, change, now + w.config.adminTimelockSeconds.toNat⟩
  | .execute k n _ _ => match announced w n with
    | some p => .execute n k p.payload now
    | none => .idle
  | .cancelTimelockedAction n _ _ => .cancel n
  | ix => match instantClose ix with
    | some k => .disarm k
    | none => .idle

/-- Every live account is as some propose queued it, and the counter counts them. -/
structure QueueSound (w : World) : Prop where
  queued : ∀ n tl, w.timelocks.lookup n = some tl → ∃ change : Change, tl.nonce = n ∧
    tl.actionDisc = change.kind.disc ∧ change.encode = .ok tl.actionData ∧
    n < w.config.nextTimelockNonce
  counted : w.config.activeProposalCount.toNat = w.timelocks.keys.card
  bounded : w.config.activeProposalCount.toNat ≤ 10
  closed : w.config.pendingNonce .setPublicMint ≠ none → w.config.publicMintEnabled = false

theorem announced_of_lookup {w : World} {n : UInt64} {tl : TimelockQueueAccount} {change : Change}
    (hl : w.timelocks.lookup n = some tl) (hd : tl.actionDisc = change.kind.disc)
    (he : change.encode = .ok tl.actionData) :
    announced w n = some ⟨change.kind, change, tl.executableAt⟩ := by
  rw [announced, hl, Option.bind_some, hd, TimelockAction.ofDisc?_disc, Option.bind_some,
    decodeChange_encode he, Option.map_some]

theorem announced_insert {w w' : World} {n : UInt64} {tl : TimelockQueueAccount} {change : Change}
    (ht : w'.timelocks = w.timelocks.insert n tl) (hd : tl.actionDisc = change.kind.disc)
    (he : change.encode = .ok tl.actionData) :
    announced w' =
      Function.update (announced w) n (some ⟨change.kind, change, tl.executableAt⟩) := by
  funext m
  rw [Function.update_apply]
  split_ifs with hm
  · subst hm
    exact announced_of_lookup (by rw [ht, Finmap.lookup_insert]) hd he
  · rw [announced, announced, ht, Finmap.lookup_insert_of_ne _ hm]

theorem announced_erase {w w' : World} {n : UInt64} (ht : w'.timelocks = w.timelocks.erase n) :
    announced w' = Function.update (announced w) n none := by
  funext m
  rw [Function.update_apply]
  split_ifs with hm
  · rw [announced, ht, hm, Finmap.lookup_erase, Option.bind_none]
  · rw [announced, announced, ht, Finmap.lookup_erase_ne hm]

theorem queue_of_applied {rt : Runtime} {ata : Pubkey} {w w₁ : World} {change : Change}
    (h : Applied rt ata w change w₁) : w₁.timelocks = w.timelocks ∧
      w₁.config.pendingNonce = w.config.pendingNonce ∧
      w₁.config.nextTimelockNonce = w.config.nextTimelockNonce ∧
      w₁.config.activeProposalCount = w.config.activeProposalCount := by
  cases h <;> exact ⟨rfl, rfl, rfl, rfl⟩

theorem publicMintEnabled_of_applied {rt : Runtime} {ata : Pubkey} {w w₁ : World}
    {change : Change} (h : Applied rt ata w change w₁) (hk : change.kind ≠ .setPublicMint) :
    w₁.config.publicMintEnabled = w.config.publicMintEnabled := by
  cases h with
  | publicMint => exact absurd rfl hk
  | _ => rfl

/-- An open timelock is an announced change of its kind, whose slot is armed and whose time has
come. -/
theorem announced_of_opened {k : TimelockAction} {n : UInt64} {now : ℤ} {admin rent : Pubkey}
    {w : World} {tl : TimelockQueueAccount} {change : Change}
    (h : Opened k n now admin rent w tl) (hd : decodeChange k tl.actionData = some change) :
    announced w n = some ⟨k, change, tl.executableAt⟩ := by
  rw [announced, h.found, Option.bind_some, h.disc, TimelockAction.ofDisc?_disc, Option.bind_some,
    hd, Option.map_some]

theorem notices_step {rt : Runtime} {now : ℤ} {signer : Pubkey} {ix : Instruction} {w w' : World}
    (hw : QueueSound w) (h : Effect rt now signer w ix w') :
    Registry.Step (notices w) (labelOf now w ix) (notices w') := by
  cases h with
  | propose queued =>
    rename_i change data executableAt nextNonce count _ _ _
    refine ⟨fun hn => UInt64.lt_irrefl _ hn, queued.free, ?_⟩
    have hset : {n | n < nextNonce} =
        insert w.config.nextTimelockNonce {n | n < w.config.nextTimelockNonce} := by
      ext n
      have := queued.nextNonce
      simp only [Set.mem_ofPred_eq, Set.mem_insert_iff, UInt64.lt_iff_toNat_lt, ← UInt64.toNat_inj]
      omega
    rw [← queued.executableAt, notices, hset, announced_insert rfl rfl queued.encode]
    rfl
  | execute timelock decoded kind applied =>
    obtain ⟨ht, hp, hn, -⟩ := queue_of_applied applied
    have ha := announced_of_opened timelock decoded
    rw [labelOf, ha]
    refine ⟨⟨_, timelock.due, ha⟩, timelock.armed, ?_⟩
    rw [notices, announced_erase (w := w) (by rw [closeTimelock, ht])]
    simp only [closeTimelock, hp, hn, notices]
  | cancelTimelockedAction found _ _ _ _ _ slots =>
    obtain ⟨change, -, hd, he, -⟩ := hw.queued _ _ found
    refine ⟨_, announced_of_lookup found hd he, ?_⟩
    rw [notices, announced_erase (w := w) rfl, slots, hd, TimelockAction.ofDisc?_disc]
    rfl
  | setPublicMintEnabled => rfl
  | setRedemptionsEnabled => rfl
  | emergencyTightenRedeemLimits _ _ _ _ _ slots =>
    rw [labelOf, instantClose]
    · split_ifs at slots ⊢ with hs
      · subst slots; rfl
      · subst slots; rfl
    all_goals nofun
  | _ => rfl

theorem QueueSound.close {w w' : World} {n : UInt64} {tl : TimelockQueueAccount}
    (hw : QueueSound w) (hl : w.timelocks.lookup n = some tl)
    (ht : w'.timelocks = w.timelocks.erase n)
    (hn : w'.config.nextTimelockNonce = w.config.nextTimelockNonce)
    (hc : w'.config.activeProposalCount = saturatingSub w.config.activeProposalCount 1)
    (hp : w'.config.pendingNonce .setPublicMint ≠ none → w'.config.publicMintEnabled = false) :
    QueueSound w' := by
  have hcard := Accounts.card_erase_add_one hl
  have hcount := hw.counted
  have hbound := hw.bounded
  have hsub := toNat_saturatingSub w.config.activeProposalCount 1
  simp only [word_uint8, UInt8.toNat_one] at hsub
  refine ⟨?_, by rw [ht, hc]; omega, by rw [hc]; omega, hp⟩
  rw [ht, hn]
  exact Accounts.forall_erase hw.queued

theorem QueueSound.applied {rt : Runtime} {ata : Pubkey} {w w₁ : World} {change : Change}
    {k : TimelockAction} {n : UInt64} {tl : TimelockQueueAccount} (hw : QueueSound w)
    (hl : w.timelocks.lookup n = some tl) (hk : change.kind = k)
    (h : Applied rt ata w change w₁) : QueueSound (closeTimelock k n w₁) := by
  obtain ⟨ht, hp, hn, hc⟩ := queue_of_applied h
  refine hw.close hl (by rw [closeTimelock, ht]) hn (by simp only [closeTimelock, hc]) ?_
  intro hne
  simp only [closeTimelock, hp] at hne ⊢
  have hkp : TimelockAction.setPublicMint ≠ k := fun e => by
    rw [← e, Function.update_self] at hne; exact hne rfl
  rw [Function.update_of_ne hkp] at hne
  rw [publicMintEnabled_of_applied h (hk ▸ hkp.symm)]
  exact hw.closed hne

theorem QueueSound.queue {w w' : World} {change : Change} {now : ℤ} {admin : Pubkey}
    {data : List UInt8} {executableAt : ℤ} {nextNonce : UInt64} {count : UInt8}
    (hw : QueueSound w) (h : Queued change now admin w data executableAt nextNonce count)
    (ht : w'.timelocks = w.timelocks.insert w.config.nextTimelockNonce
      (queuedAccount change now admin w data executableAt))
    (hn : w'.config.nextTimelockNonce = nextNonce) (hc : w'.config.activeProposalCount = count)
    (hp : w'.config.pendingNonce .setPublicMint ≠ none → w'.config.publicMintEnabled = false) :
    QueueSound w' := by
  have hcard := Accounts.card_insert_of_notMem (queuedAccount change now admin w data executableAt)
    h.unused
  have hcount := hw.counted
  have hroom := UInt8.lt_iff_toNat_lt.1 h.room
  have h10 : (10 : UInt8).toNat = 10 := rfl
  have hnext := h.nextNonce
  have hcount' := h.count
  refine ⟨?_, by rw [ht, hc]; omega, by rw [hc]; omega, hp⟩
  simp only [ht, hn, UInt64.lt_iff_toNat_lt]
  refine Accounts.forall_insert ?_ ⟨change, rfl, rfl, h.encode, by omega⟩
  intro m t hm
  obtain ⟨ch, h1, h2, h3, h4⟩ := hw.queued m t hm
  have h4 := UInt64.lt_iff_toNat_lt.1 h4
  exact ⟨ch, h1, h2, h3, by omega⟩

theorem update_none {f : TimelockAction → Option UInt64} {j k : TimelockAction} (h : f j = none) :
    Function.update f k none j = none := by
  rw [Function.update_apply]
  split_ifs
  · rfl
  · exact h

theorem QueueSound.effect {rt : Runtime} {now : ℤ} {signer : Pubkey} {ix : Instruction}
    {w w' : World} (hw : QueueSound w) (h : Effect rt now signer w ix w') : QueueSound w' := by
  cases h with
  | propose queued repricing closed =>
    rename_i change _ _ _ _ _
    refine hw.queue queued rfl rfl rfl ?_
    intro hne
    change Function.update w.config.pendingNonce change.kind (some w.config.nextTimelockNonce) _ ≠
      none at hne
    by_cases hk : change.kind = .setPublicMint
    · obtain ⟨v, rfl⟩ : ∃ v, change = .publicMint v := by
        cases change <;> first | exact ⟨_, rfl⟩ | cases hk
      exact closed v rfl
    · rw [Function.update_of_ne (Ne.symm hk)] at hne
      exact hw.closed hne
  | execute timelock decoded kind applied => exact hw.applied timelock.found kind applied
  | cancelTimelockedAction found notCancelled notExecuted rent auth own slots =>
    obtain ⟨change, -, hd, -, -⟩ := hw.queued _ _ found
    rw [hd, TimelockAction.ofDisc?_disc] at slots
    refine hw.close found rfl rfl rfl fun hne => hw.closed fun h0 => hne ?_
    subst slots
    change (if _ then Function.update w.config.pendingNonce change.kind none
      else w.config.pendingNonce) .setPublicMint = none
    split_ifs
    · exact update_none h0
    · exact h0
  | setPublicMintEnabled => exact { hw with closed := fun _ => rfl }
  | setRedemptionsEnabled =>
    refine { hw with closed := fun hne => hw.closed fun h0 => hne ?_ }
    exact update_none (k := .setRedeemLimits) h0
  | emergencyTightenRedeemLimits _ _ _ _ _ slots =>
    refine { hw with closed := fun hne => hw.closed fun h0 => hne ?_ }
    subst slots
    change (if _ then Function.update w.config.pendingNonce .setRedeemLimits none
      else w.config.pendingNonce) .setPublicMint = none
    split_ifs
    · exact update_none h0
    · exact h0
  | _ => exact { hw with }

theorem of_update_none {f : TimelockAction → Option UInt64} {j k : TimelockAction} {n : UInt64}
    (h : Function.update f j none k = some n) : f k = some n := by
  rw [Function.update_apply] at h
  split_ifs at h
  exact h

theorem queue_shrinks {rt : Runtime} {now : ℤ} {signer : Pubkey} {ix : Instruction} {w w' : World}
    (h : Effect rt now signer w ix w') (hp : ∀ change, ix ≠ .propose change) :
    (∀ k n, w'.config.pendingNonce k = some n → w.config.pendingNonce k = some n) ∧
      ∀ n tl, w'.timelocks.lookup n = some tl → w.timelocks.lookup n = some tl := by
  cases h with
  | propose => exact absurd rfl (hp _)
  | execute _ _ _ applied =>
    obtain ⟨ht, hs, -⟩ := queue_of_applied applied
    refine ⟨fun k n hn => ?_, fun n tl hl => ?_⟩
    · rw [← hs]; exact of_update_none hn
    · rw [← ht]; exact (Accounts.lookup_of_erase hl).2
  | @cancelTimelockedAction _ _ _ _ pendingNonce _ _ _ _ _ _ _ slots =>
    refine ⟨fun k n hn => ?_, fun n tl hl => (Accounts.lookup_of_erase hl).2⟩
    change pendingNonce k = some n at hn
    rw [slots] at hn
    split at hn
    · split_ifs at hn
      · exact of_update_none hn
      · exact hn
    · exact hn
  | setPublicMintEnabled | setRedemptionsEnabled =>
    exact ⟨fun k n hn => of_update_none hn, fun n tl hl => hl⟩
  | @emergencyTightenRedeemLimits _ pendingNonce _ _ _ _ _ slots =>
    refine ⟨fun k n hn => ?_, fun n tl hl => hl⟩
    change pendingNonce k = some n at hn
    rw [slots] at hn
    split_ifs at hn
    · exact of_update_none hn
    · exact hn
  | _ => exact ⟨fun k n hn => hn, fun n tl hl => hl⟩

theorem queueSound_initial {rt : Runtime} {now : ℤ} {w : World} (h : Initialized rt now w) :
    QueueSound w := by
  obtain ⟨args, g, t, m, d⟩ := deployed_of_initialized h
  obtain ⟨usdc, -, rfl⟩ := d.state
  exact ⟨fun n tl h => by simp at h, rfl, Nat.zero_le _, fun h => absurd rfl h⟩

theorem QueueSound.step {rt : Runtime} {w w' : World} {e : Event} (hw : QueueSound w)
    (h : Step rt w e w') : QueueSound w' := by
  rcases step_cases h with ⟨c, -, -, he⟩ | ⟨-, he⟩
  · exact hw.effect he
  · exact ⟨he.config ▸ he.timelocks ▸ hw.queued, he.config ▸ he.timelocks ▸ hw.counted,
      he.config ▸ hw.bounded, he.config ▸ hw.closed⟩

/-- What a step of a run does to the registry. -/
def labelAt (r : Entry) : Registry.Action UInt64 TimelockAction Change :=
  match r.event with
  | .call c => labelOf c.now r.pre c.ix
  | .external => .idle

def noticeAt (r : Entry) : Registry.Entry UInt64 TimelockAction Change :=
  ⟨notices r.pre, labelAt r, notices r.post⟩

theorem refines {rt : Runtime} {now₀ : ℤ} {w₀ w : World} {es : List Entry}
    (h₀ : Initialized rt now₀ w₀) (run : Run rt w₀ es w) :
    Trace Registry.Step (notices w₀) (es.map noticeAt) (notices w) := by
  refine Trace.simulates (l := labelAt) (queueSound_initial h₀) QueueSound.step ?_ run
  intro w e w' hw hs
  rcases step_cases hs with ⟨c, rfl, -, he⟩ | ⟨rfl, he⟩
  · exact notices_step hw he
  · change notices w' = notices w
    unfold notices announced
    rw [he.timelocks, he.config]

theorem notices_initial {rt : Runtime} {now : ℤ} {w : World} (h : Initialized rt now w) :
    (∀ n, (notices w).live n = none) ∧ ∀ k, (notices w).slot k = none := by
  obtain ⟨args, g, t, m, d⟩ := deployed_of_initialized h
  obtain ⟨usdc, -, rfl⟩ := d.state
  exact ⟨fun n => by simp [notices, announced], fun k => rfl⟩

section Registry

/-- The registry of timelocked proposals as the accounts and the config hold it. -/
structure RegistrySound (w : World) : Prop where
  counted : w.config.activeProposalCount.toNat = w.timelocks.keys.card
  bounded : w.config.activeProposalCount ≤ MAX_ACTIVE_PROPOSALS
  /-- Whatever closes an account takes exactly one off the counter. -/
  unsaturated : ∀ n tl, w.timelocks.lookup n = some tl →
    (saturatingSub w.config.activeProposalCount 1).toNat + 1 = w.config.activeProposalCount.toNat
  slots : ∀ k n, w.config.pendingNonce k = some n →
    ∃ tl, w.timelocks.lookup n = some tl ∧ tl.nonce = n ∧ tl.actionDisc = k.disc
  issued : ∀ n tl, w.timelocks.lookup n = some tl →
    tl.nonce = n ∧ n < w.config.nextTimelockNonce
  closed : ∀ n, w.config.pendingNonce .setPublicMint = some n → w.config.publicMintEnabled = false

theorem RegistrySound.of_queue {w : World} (hw : QueueSound w) (hr : Registry.Sound (notices w)) :
    RegistrySound w := by
  refine ⟨hw.counted, UInt8.le_iff_toNat_le.2 hw.bounded, ?_, ?_,
    ?_, fun n hn => hw.closed fun h => by rw [h] at hn; cases hn⟩
  · intro n tl hl
    have hsub := toNat_saturatingSub w.config.activeProposalCount 1
    have hcard := Accounts.card_erase_add_one hl
    have hcount := hw.counted
    simp only [word_uint8, UInt8.toNat_one] at hsub
    omega
  · intro k n hk
    obtain ⟨p, hp, hpk⟩ := hr.slot k n hk
    obtain ⟨tl, hl, -⟩ := Option.bind_eq_some_iff.1 hp
    obtain ⟨change, hn, hd, he, -⟩ := hw.queued n tl hl
    have ha := (announced_of_lookup hl hd he).symm.trans hp
    exact ⟨tl, hl, hn, by rw [hd, ← hpk, ← Option.some.inj ha]⟩
  · intro n tl hl
    obtain ⟨change, hn, -, -, hlt⟩ := hw.queued n tl hl
    exact ⟨hn, hlt⟩

/-- The nonce that a propose issues. -/
def issuedNonce (r : Entry) : Option UInt64 :=
  match r.event with
  | .call c => match c.ix with
    | .propose _ => some r.pre.config.nextTimelockNonce
    | _ => none
  | .external => none

theorem nextNonce_mono {rt : Runtime} {now : ℤ} {signer : Pubkey} {ix : Instruction}
    {w w' : World} (h : Effect rt now signer w ix w') :
    w.config.nextTimelockNonce.toNat ≤ w'.config.nextTimelockNonce.toNat := by
  cases h with
  | propose queued => exact (Nat.le_succ _).trans queued.nextNonce.ge
  | execute _ _ _ applied => rw [closeTimelock, (queue_of_applied applied).2.2.1]
  | _ => exact le_rfl

theorem nextNonce_propose {rt : Runtime} {now : ℤ} {signer : Pubkey} {change : Change}
    {w w' : World} (h : Effect rt now signer w (.propose change) w') :
    w.config.nextTimelockNonce.toNat < w'.config.nextTimelockNonce.toNat := by
  cases h with
  | propose queued => exact (Nat.lt_succ_self _).trans_eq queued.nextNonce.symm

theorem issuedNonce_step {rt : Runtime} {w w' : World} {e : Event} (h : Step rt w e w') :
    w.config.nextTimelockNonce.toNat ≤ w'.config.nextTimelockNonce.toNat ∧
      ∀ n, issuedNonce ⟨w, e, w'⟩ = some n →
        n = w.config.nextTimelockNonce ∧ n.toNat < w'.config.nextTimelockNonce.toNat := by
  rcases step_cases h with ⟨c, rfl, -, he⟩ | ⟨rfl, he⟩
  · refine ⟨nextNonce_mono he, ?_⟩
    intro n hn
    simp only [issuedNonce] at hn
    split at hn
    · rename_i change hix
      obtain rfl := Option.some.inj hn
      exact ⟨rfl, nextNonce_propose (hix ▸ he)⟩
    · cases hn
  · exact ⟨by rw [he.config], nofun⟩

theorem issuedNonce_nodup {rt : Runtime} {w₀ w : World} {es : List Entry} (run : Run rt w₀ es w) :
    (es.filterMap issuedNonce).Nodup ∧
      ∀ n ∈ es.filterMap issuedNonce, n.toNat < w.config.nextTimelockNonce.toNat := by
  induction run with
  | nil => simp
  | @snoc es w e w' run last ih =>
    obtain ⟨hnodup, hlt⟩ := ih
    obtain ⟨hle, hnew⟩ := issuedNonce_step last
    have hlt' : ∀ n ∈ es.filterMap issuedNonce, n.toNat < w'.config.nextTimelockNonce.toNat :=
      fun n hn => (hlt n hn).trans_le hle
    rw [List.filterMap_append, List.filterMap_cons, List.filterMap_nil]
    cases hi : issuedNonce ⟨w, e, w'⟩ with
    | none => rw [List.append_nil]; exact ⟨hnodup, hlt'⟩
    | some n =>
      obtain ⟨rfl, hn⟩ := hnew n hi
      refine ⟨hnodup.append (List.nodup_singleton _) ?_, ?_⟩
      · exact List.disjoint_singleton.2 fun hm => (hlt _ hm).ne rfl
      · intro m hm
        rcases List.mem_append.1 hm with hm | hm
        · exact hlt' m hm
        · rw [List.mem_singleton.1 hm]; exact hn

/-- In every reachable state the registry is sound, and over every run no nonce is issued twice. -/
theorem timelock_registry {rt : Runtime} {now₀ : ℤ} {w₀ w : World} {es : List Entry}
    (h₀ : Initialized rt now₀ w₀) (run : Run rt w₀ es w) :
    RegistrySound w ∧ (es.filterMap issuedNonce).Nodup := by
  have hw : QueueSound w := run.invariant (queueSound_initial h₀) QueueSound.step
  obtain ⟨hl, hs⟩ := notices_initial h₀
  exact ⟨.of_queue hw (Registry.history_of_run hl hs (refines h₀ run)).sound,
    (issuedNonce_nodup run).1⟩

def queueCalls : List Call :=
  [Reference.proposeFloat,
    Reference.callAt 3001 Reference.admin (.propose (.pythFeed 346)),
    Reference.executeFloat,
    Reference.callAt 89401 Reference.admin (.cancelTimelockedAction 1 false Reference.admin)]

theorem timelock_registry_queueCalls :
    RegistrySound (Reference.final Reference.runtime Reference.start queueCalls) ∧
      ((Reference.entries Reference.runtime Reference.start queueCalls).filterMap
        issuedNonce).Nodup :=
  timelock_registry Reference.initialized_start (Reference.run_of_succeeds (by decide +kernel))

end Registry

end DominionSilver
