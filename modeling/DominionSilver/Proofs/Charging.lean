import DominionSilver.Library.Limiter
import DominionSilver.Sanity.Proxy

/-! Who pays for the upstream calls of the proxy. A token is taken exactly where a call starts, the
tokens bound the starts, and a fresh request that finds a call in flight never comes to the
tokens. -/

namespace DominionSilver

namespace LazerProxy

open Limiter

variable {P : Type} {now : ℤ} {i : Instance P} {p p' : Proxy P} {e : Event P} {o : Output P}
  {loaded : ℤ} {apiKey : Option String} {rs past future : List (Rec P)} {x : Rec P} {k r : ℕ}

section Tokens

/-- The limiter that the instance's tokens are. -/
def Instance.bucket (i : Instance P) : Bucket ℚ := ⟨i.tokens, i.lastRefill⟩

/-- Tokens in a millisecond. -/
abbrev ratePerMs : ℚ := BUCKET_RATE_PER_SEC / 1000

/-- The tokens that `allowRequest` finds at `now`. -/
def Instance.available (i : Instance P) (now : ℤ) : ℚ :=
  min BUCKET_BURST (i.tokens + ((now - i.lastRefill : ℤ) : ℚ) / 1000 * BUCKET_RATE_PER_SEC)

theorem level_bucket : i.bucket.level BUCKET_BURST ratePerMs now = i.available now := by
  unfold Bucket.level Instance.bucket Instance.available
  push_cast
  ring_nf

theorem bucket_refused (h : (allowRequest now i).1 = false) :
    (allowRequest now i).2.bucket = ⟨i.bucket.level BUCKET_BURST ratePerMs now, now⟩ := by
  rw [level_bucket]
  unfold allowRequest at h ⊢
  dsimp only at h ⊢
  split_ifs at h ⊢
  rfl

theorem bucket_allowed (h : (allowRequest now i).1 = true) :
    1 ≤ i.bucket.level BUCKET_BURST ratePerMs now ∧
      (allowRequest now i).2.bucket =
        ⟨i.bucket.level BUCKET_BURST ratePerMs now - 1, now⟩ := by
  rw [level_bucket]
  unfold allowRequest at h ⊢
  dsimp only at h ⊢
  split_ifs at h ⊢ with hfew
  exact ⟨not_lt.1 hfew, rfl⟩

theorem admits_starts (run : Run loaded apiKey rs p) (forward : Forward rs) :
    Admits BUCKET_BURST ratePerMs (loaded : ℚ) (starts rs) p.inst.bucket p.now := by
  revert forward
  refine run.history (I := fun rs p => Forward rs →
    Admits BUCKET_BURST ratePerMs (loaded : ℚ) (starts rs) p.inst.bucket p.now) ?_ ?_
  · exact fun _ => .full
  rintro rs q ⟨e, o⟩ q' ih hstep forward
  have hq := ih fun x hx => forward x (List.mem_append_left _ hx)
  have hlater : q.now ≤ q'.now := forward ⟨q, (e, o), q'⟩ (by simp)
  cases act_of_step hstep with
  | tick => rw [starts_snoc_none rfl]; exact hq.wait (by exact_mod_cast hlater)
  | arrive | wrote | threw | release => rw [starts_snoc_none rfl]; exact hq
  | turn _ _ move =>
    cases move with
    | answer | claim | joins | awaits => rw [starts_snoc_none rfl]; exact hq
    | refuse _ refused =>
      rw [starts_snoc_none rfl]
      change Admits _ _ _ _ (allowRequest q.now q.inst).2.bucket _
      rw [bucket_refused refused]
      exact hq.refuse
    | opens _ _ allowed =>
      obtain ⟨henough, hbucket⟩ := bucket_allowed allowed
      rw [starts_snoc_some (k := q.inst.nextCall) rfl]
      change Admits _ _ _ _ (allowRequest q.now q.inst).2.bucket _
      rw [hbucket]
      exact hq.grant henough

theorem starts_window (run : Run loaded apiKey rs p) (forward : Forward rs) (a : ℚ) {T : ℚ}
    (hT : 0 ≤ T) : ((starts rs).countP (fun t => a ≤ t ∧ t ≤ a + 1000 * T) : ℚ) ≤ 30 + 5 * T := by
  have hwindow := (admits_starts run forward).window (a := a) (c := a + 1000 * T) (by norm_num)
    (by norm_num) (by linarith)
  refine hwindow.trans (le_of_eq ?_)
  change (30 : ℚ) + 5 / 1000 * (a + 1000 * T - a) = 30 + 5 * T
  ring

/-- The tokens that a step takes: what `allowRequest` finds after it falls short by them of what it
would have found without it. -/
def tokensTaken (x : Rec P) : ℚ :=
  x.pre.inst.available x.post.now - x.post.inst.available x.post.now

theorem available_refused (h : (allowRequest now i).1 = false) :
    (allowRequest now i).2.available now = i.available now := by
  simp only [← level_bucket, bucket_refused h]
  exact level_now level_le_burst

theorem available_opened (h : (allowRequest now i).1 = true) :
    (opened now i).available now = i.available now - 1 := by
  have hbucket : (opened now i).bucket = (allowRequest now i).2.bucket := rfl
  simp only [← level_bucket, hbucket, (bucket_allowed h).2]
  refine level_now ?_
  have hfull : i.bucket.level BUCKET_BURST ratePerMs now ≤ BUCKET_BURST := level_le_burst
  linarith

theorem Move.taken {fresh : Bool} {t : Turn P} (h : Move now i fresh t) :
    i.available now - t.inst.available now = if t.charged then 1 else 0 := by
  cases h with
  | answer | claim | joins | awaits => exact sub_self _
  | refuse _ refused => exact sub_eq_zero.2 (available_refused refused).symm
  | opens _ _ allowed => simp [available_opened allowed]

theorem tokensTaken_eq (h : Act p e o p') :
    tokensTaken ⟨p, (e, o), p'⟩ = if o.charged then 1 else 0 := by
  cases h with
  | turn _ _ move => exact move.taken
  | tick | arrive | wrote | threw | release => exact sub_self _

theorem charged_eq (h : Act p e o p') : o.charged = o.opened.isSome := by
  cases h with
  | turn _ _ move =>
    rcases move.calls with ⟨hcharged, hopened, -⟩ | ⟨hcharged, hopened, -⟩ <;>
      simp [Proxy.after, hcharged, hopened]
  | tick | arrive | wrote | threw | release => rfl

theorem sum_tokensTaken {bs : List (Rec P)} {q : Proxy P} (run : Trace Step q bs p) :
    (bs.map tokensTaken).sum = bs.countP (·.event.2.opened.isSome) := by
  induction run with
  | nil => rfl
  | @snoc bs q e q' _ last ih =>
    have hact := act_of_step last
    have hlast := tokensTaken_eq hact
    rw [charged_eq hact] at hlast
    simp only [List.map_append, List.sum_append, List.countP_append, ih, List.map_cons,
      List.map_nil, List.sum_cons, List.sum_nil, add_zero, hlast, List.countP_singleton]
    split_ifs <;> simp

end Tokens

section Joining

variable {c : Caller} {t : Turn P} {fresh ok : Bool} {q : Proxy P}

theorem exhausted_fresh (h : c.fresh = true) :
    ∃ resp, exhausted i c = respond i resp ∧ resp.status ≠ 429 ∧
      (i.silvCache ≠ none → resp.status = 200) := by
  unfold exhausted
  cases i.silvCache with
  | none => exact ⟨noPayload, rfl, by simp [noPayload], fun h => absurd rfl h⟩
  | some e =>
    dsimp only
    rw [if_pos h]
    exact ⟨served e.payload (some true), rfl, by simp [served], fun _ => rfl⟩

theorem pass_fresh (h : c.fresh = true) (hc : c.attempt ≠ 0) : pass now i c = exhausted i c := by
  unfold pass
  rw [if_pos]
  rw [h]
  exact Nat.one_le_iff_ne_zero.2 hc

/-- A fresh request that has joined a call answers when it resumes, and pays nothing. -/
theorem afterShared_fresh (h : c.fresh = true) (ok : Bool) :
    ∃ j resp, afterShared now i c ok = respond j resp ∧ resp.status ≠ 429 ∧
      (ok = true → i.silvCache ≠ none → resp.status = 200) := by
  cases ok with
  | false =>
    simp only [afterShared, Bool.false_eq_true, if_false]
    split_ifs
    · rw [pass_fresh (c := c.failed.next) h (Nat.succ_ne_zero _)]
      obtain ⟨resp, hresp, hstatus, -⟩ := exhausted_fresh (i := i) (c := c.failed.next) h
      exact ⟨i, resp, hresp, hstatus, False.elim⟩
    · exact ⟨i, unreachable, rfl, by simp [unreachable], False.elim⟩
  | true =>
    simp only [afterShared, if_true, h, cacheHit_fresh, claimOr]
    cases hclaim : claimFresh i with
    | none =>
      dsimp only
      rw [pass_fresh (c := c.next) h (Nat.succ_ne_zero _)]
      obtain ⟨resp, hresp, hstatus, hserved⟩ := exhausted_fresh (i := i) (c := c.next) h
      exact ⟨i, resp, hresp, hstatus, fun _ => hserved⟩
    | some claimed =>
      obtain ⟨e, -, -, -, hr⟩ := claimFresh_some hclaim
      refine ⟨claimed.1, claimed.2, rfl, ?_, fun _ _ => ?_⟩ <;> simp [hr, served]

/-- The body asks for the feed that the proxy serves. -/
def RequestBody.Allowed (body : RequestBody) : Prop :=
  body.feedId = .undefined ∨ body.feedId = .number SILV_FEED_ID

/-- Where a call is in flight, a fresh request joins it, if it does not have its answer at once. -/
theorem serve_inflight {body : RequestBody} (hfresh : body.fresh = .boolean true)
    (hbusy : i.inflight = some k) :
    serve now i body = ⟨i, false, none, .join ⟨true, 0, 0⟩ k⟩ ∨
      ∃ j resp, serve now i body = respond j resp ∧ resp.status ≠ 429 ∧
        (body.Allowed → resp.status = 200) := by
  have hpass : pass now i ⟨true, 0, 0⟩ = ⟨i, false, none, .join ⟨true, 0, 0⟩ k⟩ := by
    simp [pass, ATTEMPTS, cacheHit_fresh, hbusy]
  unfold serve
  simp only [hfresh, decide_true, cacheHit_fresh]
  split_ifs with hfeed
  · refine .inr ⟨i, feedNotAllowed, rfl, by simp [feedNotAllowed], fun hallowed => ?_⟩
    exact absurd hallowed (not_or.2 hfeed)
  cases i.silvCache with
  | none => exact .inl hpass
  | some e =>
    dsimp only
    split_ifs
    · right
      unfold claimOr
      cases hclaim : claimFresh i with
      | none => exact ⟨i, _, rfl, by simp [served], fun _ => rfl⟩
      | some claimed =>
        obtain ⟨e', -, -, -, hr⟩ := claimFresh_some hclaim
        refine ⟨claimed.1, claimed.2, rfl, ?_, fun _ => ?_⟩ <;> simp [hr, served]
    · exact .inl hpass

/-- `y` answers a request that waited for call `k`, without a token. -/
structure Settles (k : ℕ) (y : Rec P) : Prop where
  free : tokensTaken y = 0
  answered : ∃ resp ok, y.event.2.response = some resp ∧ resp.status ≠ 429 ∧
    y.pre.promises k = some (.settled ok) ∧ (ok = true → resp.status = 200)

theorem settles_of_joined (hT : Tracked p) (hjoined : p.requests r = some (.joined c k))
    (hfresh : c.fresh = true) (runs : e.request = some r) (h : Step p (e, o) p') :
    Settles k ⟨p, (e, o), p'⟩ ∧ p'.requests r = some .answered := by
  cases e with
  | tick | upstream | release => cases runs
  | arrive =>
    obtain rfl := Option.some.inj runs
    simp [Step, step, hjoined] at h
  | parsed =>
    obtain rfl := Option.some.inj runs
    cases hjoined.symm.trans (step_parsed h).1
  | resume =>
    obtain rfl := Option.some.inj runs
    obtain ⟨c', call, ok, hok, ⟨hr, hafter⟩ | ⟨hr, -⟩⟩ := step_resume h
    · obtain ⟨rfl, rfl⟩ := Request.joined.inj (Option.some.inj (hjoined.symm.trans hr))
      obtain ⟨j, resp, ht, hstatus, hserved⟩ :=
        @afterShared_fresh _ p.now p.inst c hfresh ok
      rw [ht] at hafter
      obtain ⟨rfl, rfl⟩ := Prod.mk.inj hafter
      have hfree := tokensTaken_eq (act_of_step h)
      refine ⟨⟨hfree, resp, ok, rfl, hstatus, hok, fun h => ?_⟩, by simp [respond, Next.request]⟩
      exact hserved h (hT.cached k (.inr (h ▸ hok)))
    · cases hjoined.symm.trans hr

theorem joined_run {bs : List (Rec P)} (hT : Tracked p)
    (hjoined : p.requests r = some (.joined c k)) (hfresh : c.fresh = true)
    (run : Trace Step p bs q) :
    (∀ y ∈ bs, y.event.1.request = some r → Settles k y) ∧
      (q.requests r = some (.joined c k) ∨
        q.requests r = some .answered ∧ ∃ y ∈ bs, y.event.1.request = some r) := by
  induction run with
  | nil => exact ⟨fun y hy => absurd hy List.not_mem_nil, .inl hjoined⟩
  | @snoc bs q e q' run last ih =>
    have hq := hT.along run
    obtain ⟨hsettles, hstate⟩ := ih
    by_cases runs : e.1.request = some r
    · rcases hstate with hwaiting | ⟨hanswered, -⟩
      · obtain ⟨hlast, hdone⟩ := settles_of_joined hq hwaiting hfresh runs last
        refine ⟨?_, .inr ⟨hdone, ⟨q, e, q'⟩, by simp, runs⟩⟩
        intro y hy hr
        rcases List.mem_append.1 hy with hy | hy
        · exact hsettles y hy hr
        · obtain rfl := List.mem_singleton.1 hy
          exact hlast
      · exact absurd hanswered (alive_of_request (act_of_step last) runs)
    · have hkept := requests_of_other (act_of_step last) runs
      refine ⟨?_, ?_⟩
      · intro y hy hr
        rcases List.mem_append.1 hy with hy | hy
        · exact hsettles y hy hr
        · obtain rfl := List.mem_singleton.1 hy
          exact absurd hr runs
      · rw [hkept]
        exact hstate.imp_right fun ⟨h, y, hy, hr⟩ => ⟨h, y, List.mem_append_left _ hy, hr⟩

end Joining

section Runs

/-- A request whose body is read at `x`, while call `k` is in flight, takes no token and is never
refused for the want of one. It joins the call or has its answer at once. If it asks for the feed
that is served and the call succeeds, it is answered with 200: either it has been or its next turn
does so. -/
structure RidesFree (r k : ℕ) (body : RequestBody) (x : Rec P) (future : List (Rec P))
    (p : Proxy P) : Prop where
  free : ∀ y ∈ x :: future, y.event.1.request = some r → tokensTaken y = 0
  admitted : ∀ y ∈ x :: future, y.event.1.request = some r →
    ∀ resp, y.event.2.response = some resp → resp.status ≠ 429
  joins : x.event.2.response = none → x.post.requests r = some (.joined ⟨true, 0, 0⟩ k)
  served : body.Allowed → p.promises k = some (.settled true) →
    (∃ y ∈ x :: future, y.event.1.request = some r ∧
      ∃ resp, y.event.2.response = some resp ∧ resp.status = 200) ∨
    ∃ p' o resp, Step p (.resume r, o) p' ∧ o.response = some resp ∧ resp.status = 200

/-- Where its call has succeeded, a fresh request that waits for it resumes to a 200. -/
theorem resume_served {c : Caller} (hT : Tracked p) (hjoined : p.requests r = some (.joined c k))
    (hfresh : c.fresh = true) (hk : p.promises k = some (.settled true)) :
    ∃ p' o resp, Step p (.resume r, o) p' ∧ o.response = some resp ∧ resp.status = 200 := by
  obtain ⟨j, resp, ht, -, hserved⟩ := @afterShared_fresh _ p.now p.inst c hfresh true
  have hstep : step p (.resume r) = some (p.after r (respond j resp)) := by
    simp only [step, hjoined, hk, ht]
  exact ⟨_, _, resp, hstep, rfl, hserved rfl (hT.cached k (.inr hk))⟩

theorem answered_step {q : Proxy P} (hanswered : p.requests r = some .answered)
    (h : Step p (e, o) q) : e.request ≠ some r ∧ q.requests r = some .answered := by
  have hidle : e.request ≠ some r := fun runs => alive_of_request (act_of_step h) runs hanswered
  exact ⟨hidle, (requests_of_other (act_of_step h) hidle).trans hanswered⟩

theorem answered_run {bs : List (Rec P)} {q : Proxy P} (hanswered : p.requests r = some .answered)
    (run : Trace Step p bs q) : ∀ y ∈ bs, y.event.1.request ≠ some r := by
  intro y hy
  obtain ⟨_, hbefore, hstep⟩ := run.step_of_mem hy
  have hpre : y.pre.requests r = some .answered :=
    hbefore.invariant (I := fun p => p.requests r = some .answered) hanswered
      fun h hs => (answered_step h hs).2
  exact (answered_step hpre hstep).1

variable {body : RequestBody} {resp : Response P}

theorem ridesFree_of_answered (hrun : Trace Step x.post future p)
    (hx : x.event.1 = .parsed r body) (hfree : tokensTaken x = 0)
    (hout : x.event.2.response = some resp) (hdone : x.post.requests r = some .answered)
    (hstatus : resp.status ≠ 429) (hserved : body.Allowed → resp.status = 200) :
    RidesFree r k body x future p := by
  have hlast := answered_run hdone hrun
  have honly : ∀ y ∈ x :: future, y.event.1.request = some r → y = x := by
    intro y hy hr
    rcases List.mem_cons.1 hy with hy | hy
    · exact hy
    · exact absurd hr (hlast y hy)
  refine ⟨?_, ?_, fun hnone => ?_, fun hallowed _ => .inl ?_⟩
  · intro y hy hr
    obtain rfl := honly y hy hr
    exact hfree
  · intro y hy hr resp' hresp'
    obtain rfl := honly y hy hr
    obtain rfl := Option.some.inj (hout.symm.trans hresp')
    exact hstatus
  · cases hout.symm.trans hnone
  · exact ⟨x, List.mem_cons_self, by rw [hx]; rfl, resp, hout, hserved hallowed⟩

theorem ridesFree_of_joined (hT : Tracked x.post) (hrun : Trace Step x.post future p)
    (hfree : tokensTaken x = 0) (hsilent : x.event.2.response = none)
    (hjoined : x.post.requests r = some (.joined ⟨true, 0, 0⟩ k)) :
    RidesFree r k body x future p := by
  obtain ⟨hsettles, hstate⟩ := joined_run hT hjoined rfl hrun
  refine ⟨?_, ?_, fun _ => hjoined, fun _ hk => ?_⟩
  · intro y hy hr
    rcases List.mem_cons.1 hy with rfl | hy
    · exact hfree
    · exact (hsettles y hy hr).free
  · intro y hy hr resp hresp
    rcases List.mem_cons.1 hy with rfl | hy
    · cases hsilent.symm.trans hresp
    · obtain ⟨resp', ok, hresp', hstatus, -⟩ := (hsettles y hy hr).answered
      obtain rfl := Option.some.inj (hresp.symm.trans hresp')
      exact hstatus
  · rcases hstate with hwaiting | ⟨-, y, hy, hr⟩
    · exact .inr (resume_served (hT.along hrun) hwaiting rfl hk)
    · obtain ⟨resp, ok, hresp, -, hok, hserved⟩ := (hsettles y hy hr).answered
      -- the call ended before the answer as it has ended now
      obtain ⟨as, bs, rfl⟩ := List.append_of_mem hy
      obtain ⟨hbefore, hturn, hrest⟩ := hrun.split
      have hkept := settled_kept (hT.along hbefore) hok ((Trace.nil.snoc hturn).append hrest)
      have hend : ok = true := by simpa using hkept.symm.trans hk
      exact .inl ⟨y, List.mem_cons_of_mem _ hy, hr, resp, hresp, hserved hend⟩

/-- A fresh request that finds a call in flight rides free, whichever way its first turn goes. -/
theorem ridesFree_of_inflight (run : Run loaded apiKey (past ++ x :: future) p)
    (hx : x.event.1 = .parsed r body) (hfresh : body.fresh = .boolean true)
    (hbusy : x.pre.inst.inflight = some k) : RidesFree r k body x future p := by
  obtain ⟨hpast, hstep, hafter⟩ := run.split
  have hact := act_of_step hstep
  have hT : Tracked x.post := (tracked_of_run hpast).step hact
  have htaken : tokensTaken x = if x.event.2.charged then 1 else 0 := tokensTaken_eq hact
  have hevent : x.event = (.parsed r body, x.event.2) := Prod.ext hx rfl
  obtain ⟨-, hturn⟩ := step_parsed (hevent ▸ hstep)
  obtain ⟨hpost, hout⟩ := Prod.mk.inj hturn
  rcases serve_inflight hfresh hbusy with hjoin | ⟨j, resp, hresp, hstatus, hserved⟩
  · rw [hjoin] at hpost hout
    refine ridesFree_of_joined hT hafter ?_ ?_ ?_
    · rw [htaken, ← hout]; rfl
    · rw [← hout]; rfl
    · simp [← hpost, Next.request]
  · rw [hresp] at hpost hout
    have hanswer : x.event.2.response = some resp := by rw [← hout]; rfl
    refine ridesFree_of_answered hafter hx ?_ hanswer ?_ hstatus hserved
    · rw [htaken, ← hout]; rfl
    · simp [← hpost, respond, Next.request]

/-- Tokens are taken for the calls that start and for nothing else, one call is in flight at most,
any `T` seconds see at most `30 + 5 * T` starts, and a fresh request that finds a call in flight
pays nothing. -/
theorem only_creators_pay (run : Run loaded apiKey rs p) (forward : Forward rs) :
    (rs.map tokensTaken).sum = rs.countP (·.event.2.opened.isSome) ∧
    (∀ j k, InFlight p j → InFlight p k → j = k) ∧
    (∀ a T : ℚ, 0 ≤ T → ((starts rs).countP (fun t => a ≤ t ∧ t ≤ a + 1000 * T) : ℚ) ≤ 30 + 5 * T) ∧
    ∀ past x future r body k, rs = past ++ x :: future → x.event.1 = .parsed r body →
      body.fresh = .boolean true → x.pre.inst.inflight = some k →
      RidesFree r k body x future p := by
  refine ⟨sum_tokensTaken run, ?_, fun a T => starts_window run forward a, ?_⟩
  · intro j k hj hk
    have hT := tracked_of_run run
    exact Option.some.inj (((hT.flight j).2 hj).symm.trans ((hT.flight k).2 hk))
  · rintro past x future r body k rfl hx hfresh hbusy
    exact ridesFree_of_inflight run hx hfresh hbusy

/-- Two fresh requests share a call: the first pays for it, the second rides free. -/
theorem only_creators_pay_pair :
    ∃ rs p, Run (P := Unit) 0 (some "key") rs p ∧ Forward rs ∧
      rs.filterMap (·.event.2.response) =
        [served ⟨"AAAA", none⟩ (some false), served ⟨"AAAA", none⟩ (some true)] ∧
      (rs.map tokensTaken).sum = rs.countP (·.event.2.opened.isSome) ∧
      ∃ past x future, rs = past ++ x :: future ∧ RidesFree 1 0 (asks true) x future p := by
  obtain ⟨rs, p, run, hresponses, forward, x, hx, hevent, hbusy⟩ :=
    run_of_checked (p := boot 0 (some "key"))
      [.arrive 0, .parsed 0 (asks true), .arrive 1, .parsed 1 (asks true), .tick 250,
        .upstream 0 (carries "AAAA" 1000000), .release 0, .resume 0, .resume 1]
      (fun rs => rs.filterMap (·.event.2.response) =
          [served ⟨"AAAA", none⟩ (some false), served ⟨"AAAA", none⟩ (some true)] ∧
        Forward rs ∧ ∃ x ∈ rs[3]?, x.event.1 = .parsed 1 (asks true) ∧
          x.pre.inst.inflight = some 0)
      (by decide +kernel)
  obtain ⟨hpaid, -, -, hrides⟩ := only_creators_pay run forward
  have hsplit := split_getElem? hx
  exact ⟨rs, p, run, forward, hresponses, hpaid, _, _, _, hsplit,
    hrides _ _ _ _ _ _ hsplit hevent rfl hbusy⟩

end Runs

end LazerProxy

end DominionSilver
