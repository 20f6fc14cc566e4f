import DominionSilver.Spec.Proxy

/-! What a request of the proxy can do between two awaits, and what a step of the event loop can
do. Whatever way a request takes through the handler, it ends in one of six moves. -/

namespace DominionSilver

namespace LazerProxy

variable {P : Type} {now : ℤ} {i : Instance P} {c : Caller}

section Tokens

@[simp] theorem allowRequest_silvCache : (allowRequest now i).2.silvCache = i.silvCache := by
  unfold allowRequest; dsimp only; split_ifs <;> rfl

@[simp] theorem allowRequest_lastClaimed :
    (allowRequest now i).2.lastClaimedFeedTsUs = i.lastClaimedFeedTsUs := by
  unfold allowRequest; dsimp only; split_ifs <;> rfl

@[simp] theorem allowRequest_inflight : (allowRequest now i).2.inflight = i.inflight := by
  unfold allowRequest; dsimp only; split_ifs <;> rfl

@[simp] theorem allowRequest_nextCall : (allowRequest now i).2.nextCall = i.nextCall := by
  unfold allowRequest; dsimp only; split_ifs <;> rfl

end Tokens

/-- The next print is due: whatever is cached is older than the publish period. -/
def Due (now : ℤ) (i : Instance P) : Prop :=
  ∀ e, i.silvCache = some e → MIN_UPSTREAM_INTERVAL_MS ≤ now - e.writtenAt

/-- A response that takes neither a claim nor a look at the tokens. -/
inductive Plain (i : Instance P) (fresh : Bool) : Response P → Prop
  | cached {e} (cached : i.silvCache = some e) :
      Plain i fresh (served e.payload (if fresh then some true else none))
  | notConfigured : Plain i fresh notConfigured
  | feedNotAllowed : Plain i fresh feedNotAllowed
  | unreachable : Plain i fresh unreachable
  | noPayload : Plain i fresh noPayload

/-- The instance once it has started a call. -/
def opened (now : ℤ) (i : Instance P) : Instance P :=
  { (allowRequest now i).2 with inflight := some i.nextCall, nextCall := i.nextCall + 1 }

inductive Move (now : ℤ) (i : Instance P) (fresh : Bool) : Turn P → Prop
  | answer {r} (plain : Plain i fresh r) : Move now i fresh (respond i r)
  | claim {e} (isFresh : fresh = true) (cached : i.silvCache = some e)
      (newer : i.lastClaimedFeedTsUs < e.feedTsUs) :
      Move now i fresh
        (respond { i with lastClaimedFeedTsUs := e.feedTsUs } (served e.payload (some false)))
  | refuse (idle : i.inflight = none) (refused : (allowRequest now i).1 = false) :
      Move now i fresh (respond (allowRequest now i).2 rateLimited)
  | opens {c : Caller} (own : c.fresh = fresh) (idle : i.inflight = none)
      (allowed : (allowRequest now i).1 = true) (due : Due now i) :
      Move now i fresh ⟨opened now i, true, some i.nextCall, .await c i.nextCall⟩
  | joins {c : Caller} {call : ℕ} (own : c.fresh = fresh) (busy : i.inflight = some call) :
      Move now i fresh ⟨i, false, none, .join c call⟩
  | awaits {c : Caller} {call : ℕ} (own : c.fresh = fresh) (busy : i.inflight = some call) :
      Move now i fresh ⟨i, false, none, .await c call⟩

section Moves

theorem cacheHit_some {fresh : Bool} {r : Response P} (h : cacheHit now i fresh = some r) :
    fresh = false ∧ ∃ e, i.silvCache = some e ∧ r = served e.payload none := by
  unfold cacheHit at h
  cases hcache : i.silvCache with
  | none => rw [hcache] at h; cases h
  | some e =>
    rw [hcache] at h
    dsimp only at h
    split_ifs at h with hhit
    exact ⟨by simpa using hhit.1, e, rfl, (Option.some.inj h).symm⟩

theorem cacheHit_fresh : cacheHit now i true = none := by
  unfold cacheHit
  cases i.silvCache <;> simp

theorem due_of_cacheHit (h : cacheHit now i false = none) : Due now i := by
  intro e hcache
  unfold cacheHit at h
  rw [hcache] at h
  by_contra hlt
  have hhit : now - e.writtenAt < CACHE_TTL_MS := by
    have : ¬ (1000 : ℤ) ≤ now - e.writtenAt := hlt
    change _ < (2000 : ℤ)
    omega
  simp [hhit] at h

theorem plain_of_cacheHit {fresh : Bool} {r : Response P} (h : cacheHit now i fresh = some r) :
    Plain i fresh r := by
  obtain ⟨rfl, e, hcache, rfl⟩ := cacheHit_some h
  exact .cached hcache

theorem exhausted_move : Move now i c.fresh (exhausted i c) := by
  unfold exhausted
  cases hcache : i.silvCache with
  | none => exact .answer .noPayload
  | some e =>
    cases hfresh : c.fresh with
    | false => exact .answer .noPayload
    | true => exact .answer (.cached hcache)

theorem Move.silvCache {fresh : Bool} {t : Turn P} (h : Move now i fresh t) :
    t.inst.silvCache = i.silvCache := by
  cases h <;> simp [respond, opened]

theorem Move.calls {fresh : Bool} {t : Turn P} (h : Move now i fresh t) :
    t.charged = false ∧ t.opened = none ∧ t.inst.inflight = i.inflight ∧
        t.inst.nextCall = i.nextCall ∨
      t.charged = true ∧ t.opened = some i.nextCall ∧ t.inst = opened now i ∧
        i.inflight = none ∧ (allowRequest now i).1 = true ∧ Due now i := by
  cases h with
  | opens _ idle allowed due => exact .inr ⟨rfl, rfl, rfl, idle, allowed, due⟩
  | answer | claim | joins | awaits => exact .inl ⟨rfl, rfl, rfl, rfl⟩
  | refuse => exact .inl ⟨rfl, rfl, allowRequest_inflight, allowRequest_nextCall⟩

theorem openOrAwait_move (due : Due now i) : Move now i c.fresh (openOrAwait now i c) := by
  unfold openOrAwait
  cases hidle : i.inflight with
  | some call => exact .awaits rfl hidle
  | none =>
    rcases hallow : allowRequest now i with ⟨allowed, j⟩
    have hfst : (allowRequest now i).1 = allowed := by rw [hallow]
    obtain rfl : (allowRequest now i).2 = j := by rw [hallow]
    cases allowed with
    | false => exact .refuse hidle hfst
    | true =>
      have hmove := Move.opens (c := c) rfl hidle hfst due
      simpa only [opened, allowRequest_nextCall] using hmove

theorem pass_move (due : c.fresh = true → c.attempt = 0 → Due now i) :
    Move now i c.fresh (pass now i c) := by
  unfold pass
  split_ifs with hlast
  · exact exhausted_move
  cases hhit : cacheHit now i c.fresh with
  | some r => exact .answer (plain_of_cacheHit hhit)
  | none =>
    cases hidle : i.inflight with
    | some call => exact .joins rfl hidle
    | none =>
      refine openOrAwait_move ?_
      cases hfresh : c.fresh with
      | false => exact due_of_cacheHit (hfresh ▸ hhit)
      | true =>
        rw [hfresh, ATTEMPTS] at hlast
        exact due hfresh (by simpa using hlast)

theorem pass_next_move : Move now i c.fresh (pass now i c.next) :=
  pass_move (c := c.next) fun _ h => absurd h (Nat.succ_ne_zero _)

theorem pass_failed_move : Move now i c.fresh (pass now i c.failed.next) :=
  pass_move (c := c.failed.next) fun _ h => absurd h (Nat.succ_ne_zero _)

theorem claimFresh_some {j : Instance P} {r : Response P} (h : claimFresh i = some (j, r)) :
    ∃ e, i.silvCache = some e ∧ i.lastClaimedFeedTsUs < e.feedTsUs ∧
      j = { i with lastClaimedFeedTsUs := e.feedTsUs } ∧ r = served e.payload (some false) := by
  unfold claimFresh at h
  split at h
  · cases h
  · next e hcache =>
    split_ifs at h with hold
    cases h
    exact ⟨e, hcache, not_le.1 hold, rfl, rfl⟩

theorem claimOr_move {t : Turn P} (hfresh : c.fresh = true) (h : Move now i c.fresh t) :
    Move now i c.fresh (claimOr i t) := by
  unfold claimOr
  cases hclaim : claimFresh i with
  | none => exact h
  | some jr =>
    obtain ⟨e, hcache, hnewer, hj, hr⟩ := claimFresh_some hclaim
    dsimp only
    rw [hj, hr]
    exact .claim hfresh hcache hnewer

theorem afterShared_move (ok : Bool) : Move now i c.fresh (afterShared now i c ok) := by
  cases ok with
  | false =>
    simp only [afterShared, Bool.false_eq_true, if_false]
    split_ifs
    · exact pass_failed_move
    · exact .answer .unreachable
  | true =>
    simp only [afterShared, if_true]
    cases hhit : cacheHit now i c.fresh with
    | some r => exact .answer (plain_of_cacheHit hhit)
    | none =>
      dsimp only
      split_ifs with hfresh
      · exact claimOr_move hfresh pass_next_move
      · rw [eq_false_of_ne_true hfresh] at hhit
        exact openOrAwait_move (due_of_cacheHit hhit)

theorem afterInflight_move (ok : Bool) : Move now i c.fresh (afterInflight now i c ok) := by
  cases ok with
  | false =>
    simp only [afterInflight, Bool.false_eq_true, if_false]
    split_ifs
    · exact pass_failed_move
    · exact .answer .unreachable
  | true =>
    simp only [afterInflight, if_true]
    split_ifs with hfresh
    · exact claimOr_move hfresh pass_next_move
    · cases hcache : i.silvCache with
      | none => exact pass_next_move
      | some e =>
        have hplain : Plain i c.fresh _ := .cached hcache
        rw [if_neg hfresh] at hplain
        exact .answer hplain

theorem serve_move (body : RequestBody) :
    Move now i (body.fresh = .boolean true) (serve now i body) := by
  set fresh : Bool := decide (body.fresh = .boolean true)
  have hpass (due : fresh = true → Due now i) : Move now i fresh (pass now i ⟨fresh, 0, 0⟩) :=
    pass_move (c := ⟨fresh, 0, 0⟩) fun h _ => due h
  unfold serve
  dsimp only
  split_ifs with hfeed
  · exact .answer .feedNotAllowed
  cases hhit : cacheHit now i fresh with
  | some r => exact .answer (plain_of_cacheHit hhit)
  | none =>
    cases hcache : i.silvCache with
    | none => exact hpass fun _ e he => by rw [hcache] at he; cases he
    | some e =>
      dsimp only
      split_ifs with hyoung
      · have hplain : Plain i fresh _ := .cached hcache
        rw [if_pos hyoung.1] at hplain
        exact claimOr_move (c := ⟨fresh, 0, 0⟩) hyoung.1 (.answer hplain)
      · refine hpass fun hfresh e' he' => ?_
        obtain rfl := Option.some.inj (hcache.symm.trans he')
        exact not_lt.1 fun hlt => hyoung ⟨hfresh, hlt⟩

end Moves

section Steps

variable {p p' : Proxy P} {e : Event P} {o : Output P}

/-- The request that an event runs. -/
def Event.request : Event P → Option ℕ
  | .arrive r | .parsed r _ | .resume r => some r
  | .tick _ | .upstream _ _ | .release _ => none

/-- The call that an event ends or releases. -/
def Event.call : Event P → Option ℕ
  | .upstream k _ | .release k => some k
  | .tick _ | .arrive _ | .parsed _ _ | .resume _ => none

theorem Event.call_of_request {r : ℕ} (h : e.request = some r) : e.call = none := by
  cases e <;> first | rfl | cases h

/-- The `fresh` of the request that an event runs. -/
def Proxy.fresh (p : Proxy P) : Event P → Bool
  | .parsed _ body => body.fresh = .boolean true
  | .resume r =>
    match p.requests r with
    | some (.joined c _) | some (.awaiting c _) => c.fresh
    | _ => false
  | _ => false

/-- What a step can do. -/
inductive Act (p : Proxy P) : Event P → Output P → Proxy P → Prop
  | tick {now : ℤ} : Act p (.tick now) .silent { p with now }
  | arrive {r} (absent : p.requests r = none) :
      Act p (.arrive r) .silent
        { p with requests := Function.update p.requests r (some .parsing) }
  | turn {e : Event P} {r t} (runs : e.request = some r) (alive : p.requests r ≠ some .answered)
      (move : Move p.now p.inst (p.fresh e) t) : Act p e (p.after r t).2 (p.after r t).1
  | wrote {call answer payload rawFeedTs} (pending : p.promises call = some .pending)
      (read : answer.read = some (payload, rawFeedTs)) :
      Act p (.upstream call answer) .silent
        { p with
          inst := { p.inst with silvCache := some ⟨p.now, payload, boundedFeedTs p.now rawFeedTs⟩ }
          promises := Function.update p.promises call (some (.finishing true)) }
  | threw {call answer} (pending : p.promises call = some .pending) (read : answer.read = none) :
      Act p (.upstream call answer) .silent
        { p with promises := Function.update p.promises call (some (.finishing false)) }
  | release {call ok} (finishing : p.promises call = some (.finishing ok)) :
      Act p (.release call) .silent
        { p with
          inst := { p.inst with inflight := none }
          promises := Function.update p.promises call (some (.settled ok)) }

theorem step_arrive {r : ℕ} (h : Step p (.arrive r, o) p') :
    p.requests r = none ∧ o.opened = none := by
  simp only [Step, step] at h
  split at h
  · cases h
  next habsent =>
  refine ⟨habsent, ?_⟩
  split_ifs at h <;> obtain ⟨-, rfl⟩ := Prod.mk.inj (Option.some.inj h) <;> rfl

theorem step_parsed {r : ℕ} {body : RequestBody} (h : Step p (.parsed r body, o) p') :
    p.requests r = some .parsing ∧ p.after r (serve p.now p.inst body) = (p', o) := by
  simp only [Step, step] at h
  split at h
  · next hr => exact ⟨hr, Option.some.inj h⟩
  · cases h

theorem step_resume {r : ℕ} (h : Step p (.resume r, o) p') :
    ∃ c call ok, p.promises call = some (.settled ok) ∧
      (p.requests r = some (.joined c call) ∧
          p.after r (afterShared p.now p.inst c ok) = (p', o) ∨
        p.requests r = some (.awaiting c call) ∧
          p.after r (afterInflight p.now p.inst c ok) = (p', o)) := by
  simp only [Step, step] at h
  split at h
  · next c call hr =>
    split at h
    · next ok hok => exact ⟨c, call, ok, hok, .inl ⟨hr, Option.some.inj h⟩⟩
    · cases h
  · next c call hr =>
    split at h
    · next ok hok => exact ⟨c, call, ok, hok, .inr ⟨hr, Option.some.inj h⟩⟩
    · cases h
  · cases h

theorem fresh_of_waits {r k : ℕ}
    (h : p.requests r = some (.joined c k) ∨ p.requests r = some (.awaiting c k)) :
    p.fresh (.resume r) = c.fresh := by
  rcases h with h | h <;> simp [Proxy.fresh, h]

theorem act_of_turn {r : ℕ} {t : Turn P} (runs : e.request = some r)
    (alive : p.requests r ≠ some .answered) (move : Move p.now p.inst (p.fresh e) t)
    (h : p.after r t = (p', o)) : Act p e o p' := by
  have hact := Act.turn runs alive move
  rwa [h] at hact

theorem act_of_step (h : Step p (e, o) p') : Act p e o p' := by
  cases e with
  | tick now =>
    obtain ⟨rfl, rfl⟩ := Prod.mk.inj (Option.some.inj h)
    exact .tick
  | arrive r =>
    simp only [Step, step] at h
    split at h
    · cases h
    next habsent =>
    split_ifs at h with hkey
    · obtain ⟨rfl, rfl⟩ := Prod.mk.inj (Option.some.inj h)
      exact .arrive habsent
    · refine act_of_turn (r := r) rfl ?_ (.answer .notConfigured) (Option.some.inj h)
      rw [habsent]
      exact nofun
  | parsed r body =>
    obtain ⟨hr, h⟩ := step_parsed h
    refine act_of_turn (r := r) rfl ?_ (serve_move body) h
    rw [hr]
    exact nofun
  | upstream call answer =>
    simp only [Step, step] at h
    split at h
    · next hpending =>
      cases hread : answer.read with
      | none =>
        simp only [fetchAndCache, hread, Option.bind_eq_bind, Option.bind_none] at h
        obtain ⟨rfl, rfl⟩ := Prod.mk.inj (Option.some.inj h)
        exact .threw hpending hread
      | some parsed =>
        simp only [fetchAndCache, hread, Option.bind_eq_bind, Option.bind_some, Option.pure_def] at h
        obtain ⟨rfl, rfl⟩ := Prod.mk.inj (Option.some.inj h)
        exact .wrote hpending hread
    · cases h
  | release call =>
    simp only [Step, step] at h
    split at h
    · next ok hfinishing =>
      obtain ⟨rfl, rfl⟩ := Prod.mk.inj (Option.some.inj h)
      exact .release hfinishing
    · cases h
  | resume r =>
    obtain ⟨c, call, ok, -, ⟨hr, h⟩ | ⟨hr, h⟩⟩ := step_resume h
    · refine act_of_turn (r := r) rfl ?_ (fresh_of_waits (.inl hr) ▸ afterShared_move ok) h
      rw [hr]
      exact nofun
    · refine act_of_turn (r := r) rfl ?_ (fresh_of_waits (.inr hr) ▸ afterInflight_move ok) h
      rw [hr]
      exact nofun

end Steps

section Calls

variable {p p' : Proxy P} {e : Event P} {o : Output P} {k r : ℕ}

/-- Call `k` has started, and its `finally` has not run. -/
def InFlight (p : Proxy P) (k : ℕ) : Prop :=
  p.promises k = some .pending ∨ ∃ ok, p.promises k = some (.finishing ok)

/-- Call `k` is over; `ok` is whether it succeeded. -/
def Ended (p : Proxy P) (k : ℕ) (ok : Bool) : Prop :=
  p.promises k = some (.finishing ok) ∨ p.promises k = some (.settled ok)

/-- The promises are those of the calls started so far, none but the latest is in flight, and a call
that succeeded has filled the cache. -/
structure Tracked (p : Proxy P) : Prop where
  unborn : ∀ k, p.inst.nextCall ≤ k → p.promises k = none
  born : ∀ k, k < p.inst.nextCall → p.promises k ≠ none
  flight : ∀ k, p.inst.inflight = some k ↔ InFlight p k
  latest : ∀ k, p.inst.inflight = some k → p.inst.nextCall = k + 1
  cached : ∀ k, Ended p k true → p.inst.silvCache ≠ none

theorem ne_of_promises {j : ℕ} {a b : Option Progress} (hj : p.promises j = a)
    (hk : p.promises k = b) (hab : a ≠ b) : j ≠ k := by
  rintro rfl
  exact hab (hj.symm.trans hk)

theorem Tracked.progress (hT : Tracked p) {ok : Bool} {cache : Option (Cached P)}
    (pending : p.promises k = some .pending)
    (hcache : (ok = true ∨ p.inst.silvCache ≠ none) → cache ≠ none) :
    Tracked { p with
      inst := { p.inst with silvCache := cache }
      promises := Function.update p.promises k (some (.finishing ok)) } := by
  refine ⟨fun j hj => ?_, fun j hj => ?_, fun j => ?_, hT.latest, fun j hj => ?_⟩
  · have hne : j ≠ k := ne_of_promises (hT.unborn j hj) pending nofun
    simpa [Function.update_of_ne hne] using hT.unborn j hj
  · by_cases hjk : j = k
    · simp [hjk]
    · simpa [Function.update_of_ne hjk] using hT.born j hj
  · by_cases hjk : j = k
    · subst hjk
      simp [InFlight, (hT.flight j).2 (.inl pending)]
    · simpa [InFlight, Function.update_of_ne hjk] using hT.flight j
  · by_cases hjk : j = k
    · subst hjk
      exact hcache (.inl (by simpa [Ended] using hj))
    · simp only [Ended, Function.update_of_ne hjk] at hj
      exact hcache (.inr (hT.cached j hj))

theorem Tracked.idle_turn (hT : Tracked p) {t : Turn P} (hopened : t.opened = none)
    (hcache : t.inst.silvCache = p.inst.silvCache) (hflight : t.inst.inflight = p.inst.inflight)
    (hnext : t.inst.nextCall = p.inst.nextCall) : Tracked (p.after r t).1 := by
  refine ⟨fun j hj => ?_, fun j hj => ?_, fun j => ?_, fun j hj => ?_, fun j hj => ?_⟩
  · simpa [Proxy.after, hopened] using hT.unborn j (hnext ▸ hj)
  · simpa [Proxy.after, hopened] using hT.born j (hnext ▸ hj)
  · simpa [Proxy.after, InFlight, hopened, hflight] using hT.flight j
  · exact hnext.trans (hT.latest j (hflight ▸ hj))
  · simp only [Ended, Proxy.after, hopened, hcache] at hj ⊢
    exact hT.cached j hj

theorem Tracked.opening_turn (hT : Tracked p) {t : Turn P} {now : ℤ}
    (hopened : t.opened = some p.inst.nextCall) (hinst : t.inst = opened now p.inst)
    (hidle : p.inst.inflight = none) : Tracked (p.after r t).1 := by
  refine ⟨fun j hj => ?_, fun j hj => ?_, fun j => ?_, fun j hj => ?_, fun j hj => ?_⟩
  · have hj : p.inst.nextCall + 1 ≤ j := by simpa [Proxy.after, hinst, opened] using hj
    have hne : j ≠ p.inst.nextCall := by omega
    simpa [Proxy.after, hopened, Function.update_of_ne hne] using hT.unborn j (by omega)
  · have hj : j < p.inst.nextCall + 1 := by simpa [Proxy.after, hinst, opened] using hj
    by_cases hjk : j = p.inst.nextCall
    · simp [Proxy.after, hopened, hjk]
    · simpa [Proxy.after, hopened, Function.update_of_ne hjk] using hT.born j (by omega)
  · by_cases hjk : j = p.inst.nextCall
    · subst hjk
      simp [Proxy.after, InFlight, hopened, hinst, opened]
    · have hnot : ¬ InFlight p j := fun h => nomatch hidle.symm.trans ((hT.flight j).2 h)
      simpa [Proxy.after, InFlight, hopened, hinst, opened, Function.update_of_ne hjk,
        Ne.symm hjk] using hnot
  · have hj : p.inst.nextCall = j := by simpa [Proxy.after, hinst, opened] using hj
    simp [Proxy.after, hinst, opened, hj]
  · by_cases hjk : j = p.inst.nextCall
    · subst hjk
      simp [Ended, Proxy.after, hopened] at hj
    · simp only [Ended, Proxy.after, hopened, Function.update_of_ne hjk] at hj
      simpa [Proxy.after, hinst, opened] using hT.cached j hj

theorem Tracked.release (hT : Tracked p) {ok : Bool}
    (finishing : p.promises k = some (.finishing ok)) :
    Tracked { p with
      inst := { p.inst with inflight := none }
      promises := Function.update p.promises k (some (.settled ok)) } := by
  have hk := (hT.flight k).2 (.inr ⟨ok, finishing⟩)
  refine ⟨fun j hj => ?_, fun j hj => ?_, fun j => ?_, nofun, fun j hj => ?_⟩
  · have hne : j ≠ k := ne_of_promises (hT.unborn j hj) finishing nofun
    simpa [Function.update_of_ne hne] using hT.unborn j hj
  · by_cases hjk : j = k
    · simp [hjk]
    · simpa [Function.update_of_ne hjk] using hT.born j hj
  · by_cases hjk : j = k
    · subst hjk
      simp [InFlight]
    · have hnot : ¬ InFlight p j := fun h =>
        hjk (Option.some.inj (((hT.flight j).2 h).symm.trans hk))
      simpa [InFlight, Function.update_of_ne hjk] using hnot
  · by_cases hjk : j = k
    · subst hjk
      have hok : ok = true := by simpa [Ended] using hj
      exact hT.cached j (.inl (hok ▸ finishing))
    · simp only [Ended, Function.update_of_ne hjk] at hj
      exact hT.cached j hj

theorem Tracked.step (hT : Tracked p) (h : Act p e o p') : Tracked p' := by
  cases h with
  | tick | arrive => exact ⟨hT.unborn, hT.born, hT.flight, hT.latest, hT.cached⟩
  | turn _ _ move =>
    rcases move.calls with ⟨-, hopened, hflight, hnext⟩ | ⟨-, hopened, hinst, hidle, -, -⟩
    · exact hT.idle_turn hopened move.silvCache hflight hnext
    · exact hT.opening_turn hopened hinst hidle
  | wrote pending => exact hT.progress pending fun _ => nofun
  | threw pending => exact hT.progress pending fun h => h.resolve_left nofun
  | release finishing => exact hT.release finishing

theorem tracked_boot (loaded : ℤ) (apiKey : Option String) :
    Tracked (boot (P := P) loaded apiKey) :=
  ⟨fun _ _ => rfl, nofun, fun _ => by simp [boot, InFlight], nofun,
    fun _ h => by simp [Ended, boot] at h⟩

theorem Tracked.along {q : Proxy P} {bs : List (Record (Proxy P) (Event P × Output P))}
    (hT : Tracked p) (run : Trace Step p bs q) : Tracked q :=
  run.invariant hT fun h hstep => h.step (act_of_step hstep)

theorem tracked_of_run {loaded : ℤ} {apiKey : Option String}
    {rs : List (Record (Proxy P) (Event P × Output P))} (run : Run loaded apiKey rs p) :
    Tracked p :=
  (tracked_boot loaded apiKey).along run

theorem promises_of_other (hT : Tracked p) (h : Act p e o p') (hk : p.promises k ≠ none)
    (he : e.call ≠ some k) : p'.promises k = p.promises k := by
  cases h with
  | tick | arrive => rfl
  | @turn _ r t _ _ move =>
    rcases move.calls with ⟨-, hopened, -⟩ | ⟨-, hopened, -⟩
    · simp [Proxy.after, hopened]
    · have hne : k ≠ p.inst.nextCall := fun h => hk (hT.unborn k h.ge)
      simp [Proxy.after, hopened, Function.update_of_ne hne]
  | wrote | threw | release =>
    exact Function.update_of_ne (fun h => he (congrArg some h.symm)) _ _

theorem settled_stays (hT : Tracked p) (h : Act p e o p') {ok : Bool}
    (hk : p.promises k = some (.settled ok)) : p'.promises k = some (.settled ok) := by
  refine (promises_of_other hT h (by simp [hk]) fun he => ?_).trans hk
  cases h with
  | tick | arrive => cases he
  | turn runs => exact nomatch (Event.call_of_request runs).symm.trans he
  | wrote pending | threw pending =>
    obtain rfl := Option.some.inj he
    simp [pending] at hk
  | release finishing =>
    obtain rfl := Option.some.inj he
    simp [finishing] at hk

theorem settled_kept {q : Proxy P}
    {bs : List (Record (Proxy P) (Event P × Output P))} {ok : Bool}
    (hT : Tracked p) (hk : p.promises k = some (.settled ok)) (run : Trace Step p bs q) :
    q.promises k = some (.settled ok) :=
  (run.invariant (I := fun p => Tracked p ∧ p.promises k = some (.settled ok)) ⟨hT, hk⟩
    fun h hstep => ⟨h.1.step (act_of_step hstep), settled_stays h.1 (act_of_step hstep) h.2⟩).2

theorem cache_step (h : Act p e o p') :
    p'.inst.silvCache = p.inst.silvCache ∨
      ∃ c, p'.inst.silvCache = some c ∧ c.writtenAt = p.now := by
  cases h with
  | tick | arrive | threw | release => exact .inl rfl
  | turn _ _ move => exact .inl move.silvCache
  | wrote => exact .inr ⟨_, rfl, rfl⟩

theorem act_opened (h : Act p e o p') (ho : o.opened = some k) :
    p.inst.inflight = none ∧ Due p.now p.inst ∧ k = p.inst.nextCall ∧
      p'.promises k = some .pending ∧ p'.now = p.now := by
  cases h with
  | tick | arrive | wrote | threw | release => cases ho
  | @turn _ r t _ _ move =>
    rcases move.calls with ⟨-, hopened, -⟩ | ⟨-, hopened, -, hidle, -, hdue⟩
    · exact nomatch hopened.symm.trans ho
    · obtain rfl := Option.some.inj (hopened.symm.trans ho)
      exact ⟨hidle, hdue, rfl, by simp [Proxy.after, hopened], rfl⟩

theorem alive_of_request (h : Act p e o p') (hr : e.request = some r) :
    p.requests r ≠ some .answered := by
  cases h with
  | tick | wrote | threw | release => cases hr
  | arrive absent =>
    obtain rfl := Option.some.inj hr
    rw [absent]
    exact nofun
  | turn runs alive =>
    obtain rfl := Option.some.inj (hr.symm.trans runs)
    exact alive

theorem requests_of_other (h : Act p e o p') (hr : e.request ≠ some r) :
    p'.requests r = p.requests r := by
  cases h with
  | tick | wrote | threw | release => rfl
  | arrive => exact Function.update_of_ne (fun h => hr (congrArg some h.symm)) _ _
  | turn runs =>
    exact Function.update_of_ne (fun h => hr (runs.trans (congrArg some h.symm))) _ _

end Calls

section History

/-- A record of a run: states, event and output. -/
abbrev Rec (P : Type) := Record (Proxy P) (Event P × Output P)

/-- The clock does not run back. -/
def Forward (rs : List (Rec P)) : Prop := ∀ x ∈ rs, x.pre.now ≤ x.post.now

/-- When the upstream calls of a history started. -/
def starts (rs : List (Rec P)) : List ℚ :=
  (rs.filter (·.event.2.opened.isSome)).map fun x => (x.pre.now : ℚ)

/-- An answer of upstream that carried an envelope. -/
structure Arrival (P : Type) where
  call : ℕ
  arrivedAt : ℤ
  payload : SilvPayload P
  rawFeedTs : Option ℚ
deriving DecidableEq

/-- What the cache holds of it. -/
def Arrival.entry (a : Arrival P) : Cached P :=
  ⟨a.arrivedAt, a.payload, boundedFeedTs a.arrivedAt a.rawFeedTs⟩

def arrival (x : Rec P) : Option (Arrival P) :=
  match x.event.1 with
  | .upstream call answer => answer.read.map fun m => ⟨call, x.pre.now, m.1, m.2⟩
  | _ => none

/-- The last arrival of a history. -/
def newest (rs : List (Rec P)) : Option (Arrival P) := (rs.filterMap arrival).getLast?

variable {loaded : ℤ} {apiKey : Option String} {rs : List (Rec P)} {p : Proxy P} {x : Rec P}

theorem starts_snoc_some {k : ℕ} (h : x.event.2.opened = some k) :
    starts (rs ++ [x]) = starts rs ++ [(x.pre.now : ℚ)] := by
  simp [starts, h]

theorem starts_snoc_none (h : x.event.2.opened = none) : starts (rs ++ [x]) = starts rs := by
  simp [starts, h]

theorem newest_snoc (h : arrival x = none) : newest (rs ++ [x]) = newest rs := by
  simp [newest, h]

theorem newest_arrival {a : Arrival P} (h : arrival x = some a) : newest (rs ++ [x]) = some a := by
  simp [newest, h]

theorem arrival_turn {q q' : Proxy P} {e : Event P} {o : Output P} {r : ℕ}
    (h : e.request = some r) : arrival ⟨q, (e, o), q'⟩ = none := by
  cases e <;> first | rfl | cases h

theorem cache_newest (run : Run loaded apiKey rs p) :
    p.inst.silvCache = (newest rs).map Arrival.entry := by
  refine run.history (I := fun rs p => p.inst.silvCache = (newest rs).map Arrival.entry) rfl ?_
  rintro rs q ⟨e, o⟩ q' ih hstep
  cases act_of_step hstep with
  | tick | arrive | release => rw [newest_snoc rfl]; exact ih
  | turn runs _ move => rw [newest_snoc (arrival_turn runs)]; exact move.silvCache.trans ih
  | @wrote call answer payload rawFeedTs _ read =>
    rw [newest_arrival (a := ⟨call, q.now, payload, rawFeedTs⟩) (by simp [arrival, read])]
    rfl
  | threw _ read => rw [newest_snoc (by simp [arrival, read])]; exact ih

end History

section Replay

variable {p : Proxy P}

/-- The records of a list of events, where all of them can happen. -/
def play (p : Proxy P) : List (Event P) → Option (List (Rec P))
  | [] => some []
  | e :: es => do
    let (p', o) ← step p e
    let rs ← play p' es
    return ⟨p, (e, o), p'⟩ :: rs

theorem run_of_play {es : List (Event P)} {rs : List (Rec P)} (h : play p es = some rs) :
    ∃ p', Trace (Step (P := P)) p rs p' := by
  induction es generalizing p rs with
  | nil =>
    obtain rfl := Option.some.inj h
    exact ⟨p, .nil⟩
  | cons e es ih =>
    simp only [play, Option.bind_eq_bind, Option.bind_eq_some_iff, Option.pure_def,
      Option.some.injEq] at h
    obtain ⟨⟨q, o⟩, hstep, rs', hrest, rfl⟩ := h
    obtain ⟨p', hrun⟩ := ih hrest
    have hfirst : Trace (Step (P := P)) p [⟨p, (e, o), q⟩] q := Trace.nil.snoc hstep
    exact ⟨p', hfirst.append hrun⟩

theorem run_of_checked (es : List (Event P)) (f : List (Rec P) → Prop) [DecidablePred f]
    (h : (play p es).any f = true) : ∃ rs p', Trace (Step (P := P)) p rs p' ∧ f rs := by
  cases hplay : play p es with
  | none => rw [hplay] at h; cases h
  | some rs =>
    rw [hplay] at h
    obtain ⟨p', hrun⟩ := run_of_play hplay
    exact ⟨rs, p', hrun, of_decide_eq_true h⟩

theorem split_getElem? {rs : List (Rec P)} {x : Rec P} {n : ℕ} (h : x ∈ rs[n]?) :
    rs = rs.take n ++ x :: rs.drop (n + 1) := by
  obtain ⟨hlt, rfl⟩ := List.getElem?_eq_some_iff.1 h
  rw [← List.drop_eq_getElem_cons hlt, List.take_append_drop]

instance {rs : List (Rec P)} : Decidable (Forward rs) :=
  inferInstanceAs (Decidable (∀ x ∈ rs, x.pre.now ≤ x.post.now))

def asks (fresh : Bool) : RequestBody := ⟨.undefined, .boolean fresh⟩

def carries (envelope : String) (feedUpdateTimestamp : ℚ) : Upstream Unit :=
  .response true
    (some ⟨some ⟨some "base64", some envelope⟩, some ⟨none, some feedUpdateTimestamp⟩⟩)

end Replay

end LazerProxy

end DominionSilver
