import DominionSilver.Sanity.Proxy

/-! How often the proxy calls upstream. The age of the cache keeps a call apart from the one before
it, but a call that fails leaves the cache as it was, and then nothing does but the time that the
call took. -/

namespace DominionSilver

namespace LazerProxy

variable {P : Type} {p p' : Proxy P} {e : Event P} {o : Output P} {loaded : ℤ}
  {apiKey : Option String} {rs : List (Rec P)} {started : ℤ} {k : ℕ}

/-- What has come of call `k`, which started at `started`. -/
inductive Rests (started : ℤ) (k : ℕ) (p : Proxy P) : Prop
  | running (pending : p.promises k = some .pending)
  | failed (ended : Ended p k false) (late : MIN_UPSTREAM_INTERVAL_MS ≤ p.now - started)
  | succeeded {c : Cached P} (ended : Ended p k true) (cached : p.inst.silvCache = some c)
      (since : started ≤ c.writtenAt)

/-- The event ends an upstream call that throws. -/
def Event.fails : Event P → Bool
  | .upstream _ answer => answer.read.isNone
  | .tick _ | .arrive _ | .parsed _ _ | .release _ | .resume _ => false

/-- No upstream call fails sooner than the next print is due. -/
def FailsSlowly (rs : List (Rec P)) : Prop :=
  ∀ x ∈ rs, ∀ y ∈ rs, ∀ k answer, x.event.2.opened = some k → y.event.1 = .upstream k answer →
    answer.read = none → MIN_UPSTREAM_INTERVAL_MS ≤ y.pre.now - x.pre.now

/-- Consecutive upstream calls start at least `MIN_UPSTREAM_INTERVAL_MS` apart. -/
def Paced (rs : List (Rec P)) : Prop :=
  (starts rs).IsChain fun s t => (MIN_UPSTREAM_INTERVAL_MS : ℚ) ≤ t - s

section Steps

theorem Rests.promise (h : Rests started k p) : p.promises k ≠ none := by
  cases h with
  | running pending => simp [pending]
  | failed ended => rcases ended with h | h <;> simp [h]
  | succeeded ended => rcases ended with h | h <;> simp [h]

theorem Rests.other (hT : Tracked p) (h : Act p e o p') (later : p.now ≤ p'.now)
    (hstarted : started ≤ p.now) (he : e.call ≠ some k) (hR : Rests started k p) :
    Rests started k p' := by
  have hkept := promises_of_other hT h hR.promise he
  cases hR with
  | running pending => exact .running (hkept.trans pending)
  | failed ended late =>
    refine .failed (ended.imp hkept.trans hkept.trans) (late.trans ?_)
    exact sub_le_sub_right later started
  | succeeded ended cached since =>
    have hended : Ended p' k true := ended.imp hkept.trans hkept.trans
    rcases cache_step h with hcache | ⟨c, hcache, hwritten⟩
    · exact .succeeded hended (hcache.trans cached) since
    · exact .succeeded hended hcache (hwritten ▸ hstarted)

theorem Rests.step (hT : Tracked p) (h : Act p e o p') (later : p.now ≤ p'.now)
    (hstarted : started ≤ p.now)
    (slow : ∀ answer, e = .upstream k answer → answer.read = none →
      MIN_UPSTREAM_INTERVAL_MS ≤ p.now - started)
    (hR : Rests started k p) : Rests started k p' := by
  by_cases he : e.call = some k
  swap
  · exact hR.other hT h later hstarted he
  cases h with
  | tick | arrive => cases he
  | turn runs => exact nomatch (Event.call_of_request runs).symm.trans he
  | wrote =>
    obtain rfl := Option.some.inj he
    exact .succeeded (.inl (Function.update_self ..)) rfl hstarted
  | threw _ read =>
    obtain rfl := Option.some.inj he
    exact .failed (.inl (Function.update_self ..)) (slow _ rfl read)
  | @release _ ok finishing =>
    obtain rfl := Option.some.inj he
    cases hR with
    | running pending => exact nomatch pending.symm.trans finishing
    | failed ended late =>
      rcases ended with h | h
      · obtain rfl : false = ok := by simpa using h.symm.trans finishing
        exact .failed (.inr (Function.update_self ..)) late
      · exact nomatch h.symm.trans finishing
    | succeeded ended cached since =>
      rcases ended with h | h
      · obtain rfl : true = ok := by simpa using h.symm.trans finishing
        exact .succeeded (.inr (Function.update_self ..)) cached since
      · exact nomatch h.symm.trans finishing

theorem Rests.apart (hT : Tracked p) (idle : p.inst.inflight = none) (due : Due p.now p.inst)
    (hR : Rests started k p) : MIN_UPSTREAM_INTERVAL_MS ≤ p.now - started := by
  cases hR with
  | running pending => exact nomatch idle.symm.trans ((hT.flight k).2 (.inl pending))
  | failed _ late => exact late
  | succeeded _ cached since => exact (due _ cached).trans (sub_le_sub_left since p.now)

end Steps

section Runs

theorem rests_of_run (run : Run loaded apiKey rs p) (forward : Forward rs)
    (slow : FailsSlowly rs) :
    ∀ x ∈ rs, ∀ k, x.event.2.opened = some k → x.pre.now ≤ p.now ∧ Rests x.pre.now k p := by
  induction run with
  | nil => exact fun x hx => absurd hx List.not_mem_nil
  | @snoc rs q e q' run last ih =>
    have hold := ih (fun x hx => forward x (List.mem_append_left _ hx))
      fun x hx y hy => slow x (List.mem_append_left _ hx) y (List.mem_append_left _ hy)
    have hlater : q.now ≤ q'.now := forward ⟨q, e, q'⟩ (by simp)
    intro x hx k hopened
    rcases List.mem_append.1 hx with hx | hx
    · obtain ⟨hstarted, hR⟩ := hold x hx k hopened
      refine ⟨hstarted.trans hlater,
        hR.step (tracked_of_run run) (act_of_step last) hlater hstarted fun answer he => ?_⟩
      exact slow x (List.mem_append_left _ hx) ⟨q, e, q'⟩ (by simp) k answer hopened he
    · obtain rfl := List.mem_singleton.1 hx
      obtain ⟨-, -, -, hpending, -⟩ := act_opened (act_of_step last) hopened
      exact ⟨hlater, .running hpending⟩

theorem starts_apart (run : Run loaded apiKey rs p) (forward : Forward rs)
    (slow : FailsSlowly rs) :
    (starts rs).Pairwise fun s t => (MIN_UPSTREAM_INTERVAL_MS : ℚ) ≤ t - s := by
  induction run with
  | nil => exact .nil
  | @snoc rs q e q' run last ih =>
    have hforward : Forward rs := fun x hx => forward x (List.mem_append_left _ hx)
    have hslow : FailsSlowly rs := fun x hx y hy =>
      slow x (List.mem_append_left _ hx) y (List.mem_append_left _ hy)
    cases hopened : e.2.opened with
    | none => rw [starts_snoc_none hopened]; exact ih hforward hslow
    | some k =>
      obtain ⟨hidle, hdue, -⟩ := act_opened (act_of_step last) hopened
      rw [starts_snoc_some hopened, List.pairwise_append]
      refine ⟨ih hforward hslow, List.pairwise_singleton _ _, fun s hs t ht => ?_⟩
      obtain rfl := List.mem_singleton.1 ht
      obtain ⟨x, hx, rfl⟩ := List.mem_map.1 hs
      obtain ⟨hx, hstarted⟩ := List.mem_filter.1 hx
      obtain ⟨j, hj⟩ := Option.isSome_iff_exists.1 hstarted
      obtain ⟨-, hR⟩ := rests_of_run run hforward hslow x hx j hj
      exact_mod_cast hR.apart (tracked_of_run run) hidle hdue

/-- Where every call that fails takes a publish period to do so, calls start a period apart. -/
theorem paced_of_failsSlowly (run : Run loaded apiKey rs p) (forward : Forward rs)
    (slow : FailsSlowly rs) : Paced rs :=
  (starts_apart run forward slow).isChain

/-- Two calls that succeed, a fresh request later than the first. -/
theorem paced_of_failsSlowly_healthy :
    ∃ rs p, Run (P := Unit) 0 (some "key") rs p ∧ starts rs = [0, 1100] ∧ Paced rs := by
  obtain ⟨rs, p, run, hstarts, forward, hhealthy⟩ := run_of_checked (p := boot 0 (some "key"))
    [.arrive 0, .parsed 0 (asks false), .upstream 0 (carries "AAAA" 1000000), .release 0, .resume 0,
      .tick 1100, .arrive 1, .parsed 1 (asks true), .upstream 1 (carries "BBBB" 2000000), .release 1,
      .resume 1]
    (fun rs => starts rs = [0, 1100] ∧ Forward rs ∧ ∀ y ∈ rs, y.event.1.fails = false)
    (by decide +kernel)
  refine ⟨rs, p, run, hstarts, paced_of_failsSlowly run forward ?_⟩
  intro x _ y hy k answer _ hevent hread
  have h := hhealthy y hy
  simp [Event.fails, hevent, hread] at h

/-- A call that fails at once is followed at once by the next: both start within 10 ms. -/
theorem not_paced_failing :
    ∃ rs p, Run (P := Unit) 0 (some "key") rs p ∧ Forward rs ∧ starts rs = [0, 10] ∧ ¬ Paced rs := by
  obtain ⟨rs, p, run, hstarts, forward⟩ := run_of_checked (P := Unit) (p := boot 0 (some "key"))
    [.arrive 0, .parsed 0 (asks false), .tick 10, .upstream 0 .failed, .release 0, .resume 0]
    (fun rs => starts rs = [0, 10] ∧ Forward rs) (by decide +kernel)
  refine ⟨rs, p, run, forward, hstarts, fun hpaced => ?_⟩
  rw [Paced, hstarts] at hpaced
  norm_num at hpaced

end Runs

end LazerProxy

end DominionSilver
