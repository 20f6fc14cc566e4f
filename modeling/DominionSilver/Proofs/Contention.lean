import DominionSilver.Sanity.Proxy

/-! Claims of the proxy. The timestamp that an instance last claimed only moves forward, and every
claim moves it to the timestamp of the envelope that it hands out. -/

namespace DominionSilver

namespace LazerProxy

variable {P : Type} {now : ℤ} {i : Instance P} {fresh : Bool} {t : Turn P} {p p' : Proxy P}
  {e : Event P} {o : Output P} {r : Response P} {payload : SilvPayload P}

/-- `x` hands out the newest arrival `a` uncontended, and `ts` is the timestamp it arrived with. -/
structure Claims (past : List (Rec P)) (x : Rec P) (a : Arrival P) (ts : ℚ) : Prop where
  response : x.event.2.response = some (served a.payload (some false))
  newest : newest past = some a
  stamp : a.rawFeedTs = some ts
  positive : 0 < ts
  notAhead : ts < a.arrivedAt * 1000 + FORWARD_TOLERANCE_US

section Steps

theorem boundedFeedTs_pos {rawFeedTs : Option ℚ} (h : 0 < boundedFeedTs now rawFeedTs) :
    rawFeedTs = some (boundedFeedTs now rawFeedTs) ∧
      boundedFeedTs now rawFeedTs < now * 1000 + FORWARD_TOLERANCE_US := by
  cases rawFeedTs with
  | none => exact absurd h (lt_irrefl 0)
  | some ts =>
    simp only [boundedFeedTs] at h ⊢
    split_ifs at h ⊢ with hbounds
    · exact ⟨rfl, hbounds.2⟩
    · exact absurd h (lt_irrefl 0)

theorem Move.lastClaimed_le (h : Move now i fresh t) :
    i.lastClaimedFeedTsUs ≤ t.inst.lastClaimedFeedTsUs := by
  cases h with
  | claim _ _ newer => exact newer.le
  | answer | joins | awaits => exact le_rfl
  | refuse | opens => simp [respond, opened]

theorem Move.uncontended (h : Move now i fresh t) (hr : t.next = .answer r)
    (hc : r.content = .payload payload (some false)) :
    ∃ e, i.silvCache = some e ∧ i.lastClaimedFeedTsUs < e.feedTsUs ∧
      t.inst.lastClaimedFeedTsUs = e.feedTsUs ∧ r = served e.payload (some false) := by
  cases h with
  | claim _ cached newer =>
    obtain rfl := Next.answer.inj hr
    exact ⟨_, cached, newer, rfl, rfl⟩
  | answer plain =>
    obtain rfl := Next.answer.inj hr
    cases plain with
    | cached => cases fresh <;> cases hc
    | notConfigured | feedNotAllowed | unreachable | noPayload => cases hc
  | refuse =>
    obtain rfl := Next.answer.inj hr
    cases hc
  | opens | joins | awaits => cases hr

theorem act_lastClaimed_le (h : Act p e o p') :
    p.inst.lastClaimedFeedTsUs ≤ p'.inst.lastClaimedFeedTsUs := by
  cases h with
  | turn _ _ move => exact move.lastClaimed_le
  | tick | arrive | wrote | threw | release => exact le_rfl

theorem act_uncontended (h : Act p e o p') (hr : o.response = some r)
    (hc : r.content = .payload payload (some false)) :
    ∃ e, p.inst.silvCache = some e ∧ p.inst.lastClaimedFeedTsUs < e.feedTsUs ∧
      p'.inst.lastClaimedFeedTsUs = e.feedTsUs ∧ r = served e.payload (some false) := by
  cases h with
  | @turn _ _ t _ _ move =>
    refine move.uncontended ?_ hc
    change t.next.response = some r at hr
    cases hnext : t.next with
    | answer r' => rw [hnext] at hr; exact congrArg Next.answer (Option.some.inj hr)
    | join | await => rw [hnext] at hr; cases hr
  | tick | arrive | wrote | threw | release => cases hr

end Steps

section Runs

variable {loaded : ℤ} {apiKey : Option String} {rs past future between : List (Rec P)} {x y : Rec P}
  {a : Arrival P} {ts : ℚ}

theorem lastClaimed_nonneg (run : Run loaded apiKey rs p) : 0 ≤ p.inst.lastClaimedFeedTsUs :=
  run.invariant (I := fun p => 0 ≤ p.inst.lastClaimedFeedTsUs) le_rfl fun h hstep =>
    h.trans (act_lastClaimed_le (act_of_step hstep))

theorem claims_of_uncontended (run : Run loaded apiKey (past ++ x :: future) p)
    (hr : x.event.2.response = some r) (hc : r.content = .payload payload (some false)) :
    ∃ a ts, Claims past x a ts ∧ a.payload = payload := by
  obtain ⟨hpast, hstep, -⟩ := run.split
  obtain ⟨e, hcache, hnewer, -, rfl⟩ := act_uncontended (act_of_step hstep) hr hc
  obtain ⟨a, hnewest, rfl⟩ := Option.map_eq_some_iff.1 ((cache_newest hpast).symm.trans hcache)
  have hpos : 0 < boundedFeedTs a.arrivedAt a.rawFeedTs := (lastClaimed_nonneg hpast).trans_lt hnewer
  obtain ⟨hstamp, hahead⟩ := boundedFeedTs_pos hpos
  exact ⟨a, _, ⟨hr, hnewest, hstamp, hpos, hahead⟩, (Content.payload.inj hc).1⟩

theorem Claims.lastClaimed (run : Run loaded apiKey (past ++ x :: future) p)
    (h : Claims past x a ts) :
    x.pre.inst.lastClaimedFeedTsUs < ts ∧ x.post.inst.lastClaimedFeedTsUs = ts := by
  obtain ⟨hpast, hstep, -⟩ := run.split
  obtain ⟨e, hcache, hnewer, hclaimed, -⟩ := act_uncontended (act_of_step hstep) h.response rfl
  have hentry : e = a.entry := by
    rw [cache_newest hpast, h.newest] at hcache
    exact (Option.some.inj hcache).symm
  have hts : e.feedTsUs = ts := by
    rw [hentry]
    simp [Arrival.entry, boundedFeedTs, h.stamp, h.positive, h.notAhead]
  exact ⟨hts ▸ hnewer, hclaimed.trans hts⟩

theorem claims_increase {b : Arrival P} {ts' : ℚ}
    (run : Run loaded apiKey (past ++ x :: (between ++ y :: future)) p) (hx : Claims past x a ts)
    (hy : Claims (past ++ x :: between) y b ts') : ts < ts' := by
  obtain ⟨-, -, hafter⟩ := run.split
  obtain ⟨hbetween, -, -⟩ := hafter.split
  have hkept : ts ≤ y.pre.inst.lastClaimedFeedTsUs :=
    hbetween.invariant (I := fun p => ts ≤ p.inst.lastClaimedFeedTsUs) (hx.lastClaimed run).2.ge
      fun h hstep => h.trans (act_lastClaimed_le (act_of_step hstep))
  rw [← List.cons_append, ← List.append_assoc] at run
  exact hkept.trans_lt (hy.lastClaimed run).1

/-- Each print is handed out uncontended at most once, later claims are newer, and each comes with
the envelope of its print. -/
theorem one_claim_per_print (run : Run loaded apiKey rs p) :
    (∀ past x future r payload, rs = past ++ x :: future → x.event.2.response = some r →
      r.content = .payload payload (some false) →
      ∃ a ts, Claims past x a ts ∧ a.payload = payload) ∧
    ∀ past x between y future a b ts ts', rs = past ++ x :: (between ++ y :: future) →
      Claims past x a ts → Claims (past ++ x :: between) y b ts' → ts < ts' := by
  constructor
  · rintro past x future r payload rfl hr hc
    exact claims_of_uncontended run hr hc
  · rintro past x between y future a b ts ts' rfl hx hy
    exact claims_increase run hx hy

/-- Three fresh requests: two share a print, the third has the next one. -/
theorem one_claim_per_print_shared :
    ∃ rs p, Run (P := Unit) 0 (some "key") rs p ∧
      rs.filterMap (·.event.2.response) =
        [served ⟨"AAAA", none⟩ (some false), served ⟨"AAAA", none⟩ (some true),
          served ⟨"BBBB", none⟩ (some false)] ∧
      (∀ past x future r payload, rs = past ++ x :: future → x.event.2.response = some r →
        r.content = .payload payload (some false) →
        ∃ a ts, Claims past x a ts ∧ a.payload = payload) ∧
      ∀ past x between y future a b ts ts', rs = past ++ x :: (between ++ y :: future) →
        Claims past x a ts → Claims (past ++ x :: between) y b ts' → ts < ts' := by
  obtain ⟨rs, p, run, hresponses⟩ := run_of_checked (p := boot 0 (some "key"))
    [.arrive 0, .parsed 0 (asks true), .arrive 1, .parsed 1 (asks true),
      .upstream 0 (carries "AAAA" 1000000), .release 0, .resume 0, .resume 1, .tick 1100,
      .arrive 2, .parsed 2 (asks true), .upstream 1 (carries "BBBB" 2000000), .release 1, .resume 2]
    (fun rs => rs.filterMap (·.event.2.response) =
      [served ⟨"AAAA", none⟩ (some false), served ⟨"AAAA", none⟩ (some true),
        served ⟨"BBBB", none⟩ (some false)])
    (by decide +kernel)
  exact ⟨rs, p, run, hresponses, one_claim_per_print run⟩

end Runs

end LazerProxy

end DominionSilver
