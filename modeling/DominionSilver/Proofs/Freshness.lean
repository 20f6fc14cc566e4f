import DominionSilver.Sanity.Proxy

/-! Which envelopes the proxy serves to fresh requests. A call that a fresh request waits for was in
flight when the request arrived or started later, so what the call writes is fresh; where the call
fails, the request is served what was cached before. -/

namespace DominionSilver

namespace LazerProxy

variable {P : Type} {now : ℤ} {i : Instance P} {c : Caller} {t : Turn P} {p p' : Proxy P}
  {e : Event P} {o : Output P} {resp : Response P} {loaded : ℤ} {apiKey : Option String}
  {rs past : List (Rec P)} {x : Rec P} {k r : ℕ}

/-- Call `k` was in flight when request `r` arrived, or has started since. -/
def FlownSince (past : List (Rec P)) (r k : ℕ) : Prop :=
  ∃ before y after, past = before ++ y :: after ∧ y.event.1 = .arrive r ∧
    (y.pre.inst.inflight = some k ∨ ∃ z ∈ after, z.event.2.opened = some k)

/-- `x` answers request `r` with the newest envelope, which was written less than a publish period
ago or by a call in flight since the request arrived. -/
def ServesFresh (past : List (Rec P)) (x : Rec P) (r : ℕ) (resp : Response P) : Prop :=
  ∃ a contended, newest past = some a ∧ resp = served a.payload contended ∧
    (x.pre.now - a.arrivedAt < MIN_UPSTREAM_INTERVAL_MS ∨ FlownSince past r a.call)

/-- `x` resumes a fresh request whose joined call has failed, while the cache still holds an
envelope of a call before that one. -/
def FallsBack (past : List (Rec P)) (x : Rec P) : Prop :=
  ∃ r c k a, x.event.1 = .resume r ∧ x.pre.requests r = some (.joined c k) ∧ c.fresh = true ∧
    x.pre.promises k = some (.settled false) ∧ newest past = some a ∧ a.call < k

section Answers

theorem Move.cached {fresh : Bool} (h : Move now i fresh t) (hr : t.next = .answer resp)
    (h200 : resp.status = 200) :
    ∃ e contended, i.silvCache = some e ∧ resp = served e.payload contended := by
  cases h with
  | claim _ cached =>
    obtain rfl := Next.answer.inj hr
    exact ⟨_, _, cached, rfl⟩
  | answer plain =>
    obtain rfl := Next.answer.inj hr
    cases plain with
    | cached cached => exact ⟨_, _, cached, rfl⟩
    | notConfigured | feedNotAllowed | unreachable | noPayload => cases h200
  | refuse =>
    obtain rfl := Next.answer.inj hr
    cases h200
  | opens | joins | awaits => cases hr

theorem openOrAwait_answer (hr : (openOrAwait now i c).next = .answer resp) :
    resp.status ≠ 200 := by
  unfold openOrAwait at hr
  cases hidle : i.inflight with
  | some call => rw [hidle] at hr; cases hr
  | none =>
    rw [hidle] at hr
    rcases hallow : allowRequest now i with ⟨allowed, j⟩
    rw [hallow] at hr
    cases allowed with
    | false =>
      obtain rfl := Next.answer.inj hr
      simp [rateLimited]
    | true => cases hr

/-- At its start a fresh request is served only what is younger than a publish period. -/
theorem serve_young {body : RequestBody} (hfresh : body.fresh = .boolean true)
    (hr : (serve now i body).next = .answer resp) (h200 : resp.status = 200) {e : Cached P}
    (hcache : i.silvCache = some e) : now - e.writtenAt < MIN_UPSTREAM_INTERVAL_MS := by
  unfold serve at hr
  dsimp only at hr
  split_ifs at hr with hfeed
  · obtain rfl := Next.answer.inj hr
    cases h200
  simp only [hfresh, decide_true, cacheHit_fresh, hcache, true_and] at hr
  by_contra hold
  rw [if_neg hold, pass, if_neg (by simp [ATTEMPTS])] at hr
  simp only [cacheHit_fresh] at hr
  cases hidle : i.inflight with
  | some call => rw [hidle] at hr; cases hr
  | none =>
    rw [hidle] at hr
    exact openOrAwait_answer hr h200

theorem afterInflight_fresh_failed (h : c.fresh = true) :
    afterInflight now i c false = respond i unreachable := by
  simp [afterInflight, h, ATTEMPTS]

end Answers

section Calls

theorem nextCall_step (h : Act p e o p') :
    o.opened = none ∧ p'.inst.nextCall = p.inst.nextCall ∨
      o.opened = some p.inst.nextCall ∧ p'.inst.nextCall = p.inst.nextCall + 1 := by
  cases h with
  | tick | arrive | wrote | threw | release => exact .inl ⟨rfl, rfl⟩
  | turn _ _ move =>
    rcases move.calls with ⟨-, hopened, -, hnext⟩ | ⟨-, hopened, hinst, -⟩
    · exact .inl ⟨hopened, hnext⟩
    · exact .inr ⟨hopened, congrArg Instance.nextCall hinst⟩

theorem opened_since {q : Proxy P} {bs : List (Rec P)} (run : Trace Step p bs q)
    (hk : p.inst.nextCall ≤ k) (hlt : k < q.inst.nextCall) :
    ∃ z ∈ bs, z.event.2.opened = some k := by
  induction run with
  | nil => omega
  | @snoc bs q e q' run last ih =>
    by_cases hold : k < q.inst.nextCall
    · obtain ⟨z, hz, hopened⟩ := ih hold
      exact ⟨z, List.mem_append_left _ hz, hopened⟩
    · rcases nextCall_step (act_of_step last) with ⟨-, hnext⟩ | ⟨hopened, hnext⟩
      · omega
      · obtain rfl : k = q.inst.nextCall := by omega
        exact ⟨⟨q, e, q'⟩, by simp, hopened⟩

theorem nextCall_mono {q : Proxy P} {bs : List (Rec P)} (run : Trace Step p bs q) :
    p.inst.nextCall ≤ q.inst.nextCall :=
  run.invariant (I := fun q => p.inst.nextCall ≤ q.inst.nextCall) le_rfl fun h hstep => by
    rcases nextCall_step (act_of_step hstep) with ⟨-, hnext⟩ | ⟨-, hnext⟩ <;> omega

theorem pending_of_upstream {answer : Upstream P} (h : Act p (.upstream k answer) o p') :
    p.promises k = some .pending := by
  cases h with
  | turn runs => cases runs
  | wrote pending | threw pending => exact pending

theorem ended_of_step (h : Act p e o p') (hk : Ended p' k true) :
    Ended p k true ∨ ∃ answer, e = .upstream k answer ∧ answer.read ≠ none := by
  cases h with
  | tick | arrive => exact .inl hk
  | @turn _ r t _ _ move =>
    rcases move.calls with ⟨-, hopened, -⟩ | ⟨-, hopened, -⟩
    · exact .inl (by simpa [Ended, Proxy.after, hopened] using hk)
    · by_cases hnew : k = p.inst.nextCall
      · simp [Ended, Proxy.after, hopened, hnew] at hk
      · exact .inl (by simpa [Ended, Proxy.after, hopened, Function.update_of_ne hnew] using hk)
  | @wrote call _ _ _ _ read =>
    by_cases hcall : k = call
    · exact .inr ⟨_, by rw [hcall], by simp [read]⟩
    · exact .inl (by simpa [Ended, Function.update_of_ne hcall] using hk)
  | @threw call =>
    by_cases hcall : k = call
    · simp [Ended, hcall] at hk
    · exact .inl (by simpa [Ended, Function.update_of_ne hcall] using hk)
  | @release call ok finishing =>
    by_cases hcall : k = call
    · obtain rfl : ok = true := by simpa [Ended, hcall] using hk
      exact .inl (.inl (hcall ▸ finishing))
    · exact .inl (by simpa [Ended, Function.update_of_ne hcall] using hk)

theorem event_of_arrival {a : Arrival P} (h : arrival x = some a) :
    ∃ answer, x.event.1 = .upstream a.call answer := by
  unfold arrival at h
  split at h
  · next call answer hevent =>
    obtain ⟨m, -, rfl⟩ := Option.map_eq_some_iff.1 h
    exact ⟨answer, hevent⟩
  · cases h

/-- The newest arrival is of a call that has started, and of no earlier one than any that has
succeeded. -/
theorem newest_latest (run : Run loaded apiKey rs p) :
    (∀ a, newest rs = some a → a.call < p.inst.nextCall) ∧
      ∀ k, Ended p k true → ∃ a, newest rs = some a ∧ k ≤ a.call := by
  induction run with
  | nil => exact ⟨fun a ha => by simp [newest] at ha, fun k h => by simp [Ended, boot] at h⟩
  | @snoc rs q e q' run last ih =>
    obtain ⟨hstarted, hended⟩ := ih
    have hT := tracked_of_run run
    have hact := act_of_step last
    have hmono : q.inst.nextCall ≤ q'.inst.nextCall := nextCall_mono (Trace.nil.snoc last)
    cases harrival : arrival ⟨q, e, q'⟩ with
    | none =>
      rw [newest_snoc harrival]
      refine ⟨fun a ha => (hstarted a ha).trans_le hmono, fun k hk => ?_⟩
      rcases ended_of_step hact hk with hold | ⟨answer, hevent, hread⟩
      · exact hended k hold
      · simp [arrival, hevent, hread] at harrival
    | some a =>
      obtain ⟨answer, hevent⟩ := event_of_arrival harrival
      change e.1 = .upstream a.call answer at hevent
      have hpending : q.promises a.call = some .pending := pending_of_upstream (hevent ▸ hact)
      have hnext := hT.latest a.call ((hT.flight a.call).2 (.inl hpending))
      rw [newest_arrival harrival]
      refine ⟨fun b hb => ?_, fun k hk => ⟨a, rfl, ?_⟩⟩
      · obtain rfl := Option.some.inj hb
        omega
      · rcases ended_of_step hact hk with hold | ⟨answer', hevent', -⟩
        · by_contra hlater
          have hunborn := hT.unborn k (by omega)
          rcases hold with h | h <;> exact absurd (hunborn.symm.trans h) (by simp)
        · obtain ⟨rfl, -⟩ := Event.upstream.inj (hevent'.symm.trans hevent)
          exact le_rfl

end Calls

section Waiting

/-- Request `r` waits for call `k`. -/
def Waits (p : Proxy P) (r : ℕ) (c : Caller) (k : ℕ) : Prop :=
  p.requests r = some (.joined c k) ∨ p.requests r = some (.awaiting c k)

theorem Move.waits {fresh : Bool} (h : Move now i fresh t)
    (hnext : t.next.request = .joined c k ∨ t.next.request = .awaiting c k) :
    i.inflight = some k ∨ k = i.nextCall := by
  cases h with
  | answer | claim | refuse => rcases hnext with h | h <;> cases h
  | opens =>
    rcases hnext with h | h
    · cases h
    · obtain ⟨-, rfl⟩ := Request.awaiting.inj h
      exact .inr rfl
  | joins _ busy =>
    rcases hnext with h | h
    · obtain ⟨-, rfl⟩ := Request.joined.inj h
      exact .inl busy
    · cases h
  | awaits _ busy =>
    rcases hnext with h | h
    · cases h
    · obtain ⟨-, rfl⟩ := Request.awaiting.inj h
      exact .inl busy

theorem waits_step (hT : Tracked p) (h : Act p e o p') (hw : Waits p' r c k) :
    Waits p r c k ∨ ∀ ok, p.promises k ≠ some (.settled ok) := by
  by_cases hr : e.request = some r
  · right
    intro ok hk
    cases h with
    | tick | wrote | threw | release => cases hr
    | arrive absent =>
      obtain rfl := Option.some.inj hr
      simp [Waits] at hw
    | turn runs _ move =>
      obtain rfl := Option.some.inj (hr.symm.trans runs)
      rcases move.waits (by simpa [Waits, Proxy.after] using hw) with hbusy | rfl
      · rcases (hT.flight k).1 hbusy with hp | ⟨ok', hp⟩ <;> exact absurd (hp.symm.trans hk) (by simp)
      · exact absurd ((hT.unborn _ le_rfl).symm.trans hk) (by simp)
  · have hkept := requests_of_other h hr
    exact .inl (hw.imp hkept.symm.trans hkept.symm.trans)

theorem waits_unsettled {q : Proxy P} {bs : List (Rec P)} (hT : Tracked p)
    (absent : p.requests r = none) (run : Trace Step p bs q) (hw : Waits q r c k) {ok : Bool} :
    p.promises k ≠ some (.settled ok) := by
  intro hk
  induction run with
  | nil => rcases hw with h | h <;> exact nomatch absent.symm.trans h
  | @snoc bs q e q' run last ih =>
    have hq := hT.along run
    rcases waits_step hq (act_of_step last) hw with hold | hnew
    · exact ih hold
    · exact hnew ok (settled_kept hT hk run)

theorem known_step (h : Step p (e, o) p') (hr : p'.requests r ≠ none) :
    e = .arrive r ∨ p.requests r ≠ none := by
  by_cases hruns : e.request = some r
  · cases e with
    | tick | upstream | release => cases hruns
    | arrive r' =>
      obtain rfl := Option.some.inj hruns
      exact .inl rfl
    | parsed r' =>
      obtain rfl := Option.some.inj hruns
      exact .inr (by simp [(step_parsed h).1])
    | resume r' =>
      obtain rfl := Option.some.inj hruns
      obtain ⟨_, _, _, -, ⟨hw, -⟩ | ⟨hw, -⟩⟩ := step_resume h <;> exact .inr (by simp [hw])
  · exact .inr (requests_of_other (act_of_step h) hruns ▸ hr)

theorem arrived (run : Run loaded apiKey past p) (h : p.requests r ≠ none) :
    ∃ before y after, past = before ++ y :: after ∧ y.event.1 = .arrive r := by
  have hsince := run.since (p := fun y => y.event.1 = .arrive r) (q := fun _ => False)
    (A := fun p => p.requests r ≠ none) (fun h => h rfl)
    (fun hstep hr => (known_step hstep hr).imp_right fun h => ⟨h, id⟩) h
  obtain ⟨before, y, after, rfl, hy, -⟩ := hsince
  exact ⟨before, y, after, rfl, hy⟩

/-- A call not before the one that a request waits for has flown since the request arrived. -/
theorem flown_of_waits {j : ℕ} (run : Run loaded apiKey past p) (hw : Waits p r c j) (hjk : j ≤ k)
    (hk : k < p.inst.nextCall) : FlownSince past r k := by
  have hknown : p.requests r ≠ none := by rcases hw with h | h <;> simp [h]
  obtain ⟨before, y, after, rfl, hy⟩ := arrived run hknown
  obtain ⟨hbefore, hstep, hafter⟩ := run.split
  have hevent : y.event = (.arrive r, y.event.2) := Prod.ext hy rfl
  obtain ⟨habsent, hsilent⟩ := step_arrive (hevent ▸ hstep)
  have hT := tracked_of_run hbefore
  have hrun : Trace Step y.pre ([y] ++ after) p := (Trace.nil.snoc hstep).append hafter
  refine ⟨before, y, after, rfl, hy, ?_⟩
  by_cases hold : k < y.pre.inst.nextCall
  · -- a call from before the arrival: the awaited one, still in flight then
    left
    have hborn := hT.born j (by omega)
    have hflight : InFlight y.pre j := by
      cases hj : y.pre.promises j with
      | none => exact absurd hj hborn
      | some progress =>
        cases progress with
        | pending => exact .inl hj
        | finishing ok => exact .inr ⟨ok, hj⟩
        | settled ok => exact absurd hj (waits_unsettled hT habsent hrun hw)
    have hinflight := (hT.flight j).2 hflight
    have hnext := hT.latest j hinflight
    obtain rfl : k = j := by omega
    exact hinflight
  · right
    obtain ⟨z, hz, hopened⟩ := opened_since hrun (not_lt.1 hold) hk
    rcases List.mem_cons.1 hz with rfl | hz
    · exact nomatch hsilent.symm.trans hopened
    · exact ⟨z, hz, hopened⟩

theorem FlownSince.number (run : Run loaded apiKey past p) (h : FlownSince past r k) :
    ∃ y ∈ past, y.event.1 = .arrive r ∧
      (y.pre.inst.inflight = some k ∨ y.pre.inst.nextCall ≤ k) := by
  obtain ⟨before, y, after, rfl, hy, hflown⟩ := h
  refine ⟨y, by simp, hy, hflown.imp_right ?_⟩
  rintro ⟨z, hz, hopened⟩
  obtain ⟨as, bs, rfl⟩ := List.append_of_mem hz
  obtain ⟨-, hstep, hafter⟩ := run.split
  obtain ⟨hbetween, hopens, -⟩ := hafter.split
  obtain ⟨-, -, rfl, -⟩ := act_opened (act_of_step hopens) hopened
  exact nextCall_mono ((Trace.nil.snoc hstep).append hbetween)

end Waiting

section Runs

variable {future : List (Rec P)} {j : ℕ}

/-- What a request is served when the call that it waited for, or a later one, filled the cache. -/
theorem servesFresh_of_waits (hpast : Run loaded apiKey past x.pre) (hw : Waits x.pre r c j)
    {e : Cached P} {contended : Option Bool} (hcache : x.pre.inst.silvCache = some e)
    (hfilled : ∀ a, newest past = some a → j ≤ a.call) (hresp : resp = served e.payload contended) :
    ServesFresh past x r resp := by
  obtain ⟨a, ha, rfl⟩ := Option.map_eq_some_iff.1 ((cache_newest hpast).symm.trans hcache)
  have hstarted := (newest_latest hpast).1 a ha
  exact ⟨a, contended, ha, hresp, .inr (flown_of_waits hpast hw (hfilled a ha) hstarted)⟩

theorem filled_of_ended (hpast : Run loaded apiKey past p) (h : Ended p j true) :
    ∀ a, newest past = some a → j ≤ a.call := by
  intro a ha
  obtain ⟨b, hb, hle⟩ := (newest_latest hpast).2 j h
  obtain rfl := Option.some.inj (ha.symm.trans hb)
  exact hle

theorem response_eq {q : Proxy P} (hafter : p.after r t = (q, o)) (hr : o.response = some resp) :
    t.next = .answer resp := by
  obtain ⟨-, rfl⟩ := Prod.mk.inj hafter
  change t.next.response = some resp at hr
  cases hnext : t.next with
  | answer r' => rw [hnext] at hr; exact congrArg Next.answer (Option.some.inj hr)
  | join | await => rw [hnext] at hr; cases hr

theorem servesFresh_of_not_fallsBack (run : Run loaded apiKey (past ++ x :: future) p)
    (hbad : ¬ FallsBack past x) (hreq : x.event.1.request = some r)
    (hfresh : x.pre.fresh x.event.1 = true) (hr : x.event.2.response = some resp)
    (h200 : resp.status = 200) : ServesFresh past x r resp := by
  obtain ⟨hpast, hstep, -⟩ := run.split
  obtain ⟨pre, ⟨e, o⟩, post⟩ := x
  cases e with
  | tick | upstream | release => cases hreq
  | arrive => cases hfresh
  | parsed r' body =>
    obtain ⟨-, hafter⟩ := step_parsed hstep
    have hnext := response_eq hafter hr
    have hbody : body.fresh = .boolean true := by simpa [Proxy.fresh] using hfresh
    obtain ⟨e, contended, hcache, hresp⟩ := (serve_move body).cached hnext h200
    have hyoung := serve_young hbody hnext h200 hcache
    obtain ⟨a, ha, rfl⟩ := Option.map_eq_some_iff.1 ((cache_newest hpast).symm.trans hcache)
    exact ⟨a, contended, ha, hresp, .inl hyoung⟩
  | resume r' =>
    obtain rfl := Option.some.inj hreq
    obtain ⟨c, call, ok, hok, ⟨hw, hafter⟩ | ⟨hw, hafter⟩⟩ := step_resume hstep
    · have hc : c.fresh = true := (fresh_of_waits (.inl hw)).symm.trans hfresh
      have hnext := response_eq hafter hr
      obtain ⟨e, contended, hcache, hresp⟩ := (afterShared_move ok).cached hnext h200
      refine servesFresh_of_waits hpast (.inl hw) hcache ?_ hresp
      cases ok with
      | true => exact filled_of_ended hpast (.inr hok)
      | false =>
        -- the fallback: the cached envelope must be of this call or of a later one
        intro a ha
        by_contra hlt
        exact hbad ⟨r', c, call, a, rfl, hw, hc, hok, ha, not_le.1 hlt⟩
    · have hc : c.fresh = true := (fresh_of_waits (.inr hw)).symm.trans hfresh
      have hnext := response_eq hafter hr
      cases ok with
      | true =>
        obtain ⟨e, contended, hcache, hresp⟩ := (afterInflight_move true).cached hnext h200
        exact servesFresh_of_waits hpast (.inr hw) hcache (filled_of_ended hpast (.inr hok)) hresp
      | false =>
        rw [afterInflight_fresh_failed hc] at hnext
        obtain rfl := Next.answer.inj hnext
        cases h200

/-- Where no fresh request falls back on an older envelope after its joined call has failed, fresh
requests are served fresh envelopes only. -/
theorem fresh_never_aged (run : Run loaded apiKey rs p)
    (hbad : ∀ past x future, rs = past ++ x :: future → ¬ FallsBack past x) :
    ∀ past x future r resp, rs = past ++ x :: future → x.event.1.request = some r →
      x.pre.fresh x.event.1 = true → x.event.2.response = some resp → resp.status = 200 →
      ServesFresh past x r resp := by
  rintro past x future r resp rfl hreq hfresh hr h200
  exact servesFresh_of_not_fallsBack run (hbad past x future rfl) hreq hfresh hr h200

/-- A fresh request that joined a call is served what the call wrote. -/
theorem fresh_never_aged_joined :
    ∃ rs p, Run (P := Unit) 0 (some "key") rs p ∧
      ∃ past x future, rs = past ++ x :: future ∧ x.event.1 = .resume 1 ∧
        ServesFresh past x 1 (served ⟨"AAAA", none⟩ (some true)) := by
  obtain ⟨rs, p, run, ⟨x, hx, hevent, hfresh, hresponse⟩, hhealthy⟩ :=
    run_of_checked (P := Unit) (p := boot 0 (some "key"))
      [.arrive 0, .parsed 0 (asks true), .arrive 1, .parsed 1 (asks true),
        .upstream 0 (carries "AAAA" 1000000), .release 0, .tick 1500, .resume 0, .resume 1]
      (fun rs => (∃ x ∈ rs[8]?, x.event.1 = .resume 1 ∧ x.pre.fresh x.event.1 = true ∧
          x.event.2.response = some (served ⟨"AAAA", none⟩ (some true))) ∧
        ∀ x ∈ rs, x.pre.promises 0 ≠ some (.settled false) ∧ x.pre.inst.nextCall ≤ 1)
      (by decide +kernel)
  have hsplit := split_getElem? hx
  refine ⟨rs, p, run, _, _, _, hsplit, hevent, fresh_never_aged run ?_ _ _ _ _ _ hsplit
    (by rw [hevent]; rfl) hfresh hresponse rfl⟩
  rintro past x future rfl ⟨_, _, k, _, -, -, -, hfailed, -, -⟩
  obtain ⟨hzero, hone⟩ := hhealthy x (by simp)
  have hT := tracked_of_run run.split.1
  obtain rfl : k = 0 := by
    by_contra hk
    exact nomatch (hT.unborn k (by omega)).symm.trans hfailed
  exact hzero hfailed

/-- A fresh request joins a call that fails, and is served an envelope of the call before, which
was over more than a second before the request arrived. -/
theorem aged_envelope_served :
    ∃ rs p, Run (P := Unit) 0 (some "key") rs p ∧ Forward rs ∧
      ∃ past x future, rs = past ++ x :: future ∧ x.event.1.request = some 2 ∧
        x.pre.fresh x.event.1 = true ∧
        x.event.2.response = some (served ⟨"AAAA", none⟩ (some true)) ∧
        ¬ ServesFresh past x 2 (served ⟨"AAAA", none⟩ (some true)) := by
  obtain ⟨rs, p, run, ⟨x, hx, hevent, hfresh, hresponse, hnow⟩, forward, hnewest, harrival⟩ :=
    run_of_checked (P := Unit) (p := boot 0 (some "key"))
      [.arrive 0, .parsed 0 (asks true), .upstream 0 (carries "AAAA" 1000000), .release 0, .resume 0,
        .tick 1600, .arrive 1, .parsed 1 (asks true), .arrive 2, .parsed 2 (asks true),
        .upstream 1 .failed, .release 1, .resume 1, .resume 2]
      (fun rs => (∃ x ∈ rs[13]?, x.event.1 = .resume 2 ∧ x.pre.fresh x.event.1 = true ∧
          x.event.2.response = some (served ⟨"AAAA", none⟩ (some true)) ∧ x.pre.now = 1600) ∧
        Forward rs ∧ newest (rs.take 13) = some ⟨0, 0, ⟨"AAAA", none⟩, some 1000000⟩ ∧
        ∀ y ∈ rs, y.event.1 = .arrive 2 → y.pre.inst.inflight = some 1 ∧ y.pre.inst.nextCall = 2)
      (by decide +kernel)
  have hsplit := split_getElem? hx
  refine ⟨rs, p, run, forward, _, _, _, hsplit, by rw [hevent]; rfl, hfresh, hresponse, ?_⟩
  rintro ⟨a, contended, ha, -, hserved⟩
  obtain rfl := Option.some.inj (hnewest.symm.trans ha)
  rcases hserved with hyoung | hflown
  · rw [hnow] at hyoung
    exact absurd hyoung (by decide)
  · rw [hsplit] at run
    obtain ⟨y, hy, hy2, hflown⟩ := hflown.number run.split.1
    obtain ⟨hinflight, hnext⟩ := harrival y (List.mem_of_mem_take hy) hy2
    rcases hflown with hflown | hflown
    · exact nomatch hinflight.symm.trans hflown
    · exact absurd (hnext ▸ hflown) (by decide)

end Runs

end LazerProxy

end DominionSilver
