import DominionSilver.Library.Traces

/-! A registry of announced actions. An action is proposed under a fresh
identifier, becomes due after a delay, and takes effect at most once, while a
slot of its kind still holds its identifier. Slots can be disarmed and
proposals cancelled at any time. Nothing takes effect without its notice. -/

/-- An announced action: its kind, what it will do and when it may. -/
structure Proposal (κ π : Type) where
  kind : κ
  payload : π
  due : ℤ

structure Registry (ι κ π : Type) where
  live : ι → Option (Proposal κ π)
  slot : κ → Option ι
  issued : Set ι

namespace Registry

variable {ι κ π : Type}

inductive Action (ι κ π : Type)
  | propose (n : ι) (p : Proposal κ π)
  | execute (n : ι) (k : κ) (payload : π) (now : ℤ)
  | cancel (n : ι)
  | disarm (k : κ)
  | idle

/-- Every slot holds a live proposal of its own kind, and only issued identifiers live. -/
structure Sound (r : Registry ι κ π) : Prop where
  slot : ∀ k n, r.slot k = some n → ∃ p, r.live n = some p ∧ p.kind = k
  live : ∀ n p, r.live n = some p → n ∈ r.issued

theorem Sound.of_empty {r : Registry ι κ π} (hl : ∀ n, r.live n = none)
    (hs : ∀ k, r.slot k = none) : Sound r :=
  ⟨fun k n h => by simp [hs] at h, fun n p h => by simp [hl] at h⟩

theorem Sound.slot_injective {r : Registry ι κ π} (hr : Sound r) {k k' : κ} {n : ι}
    (h : r.slot k = some n) (h' : r.slot k' = some n) : k = k' := by
  obtain ⟨p, hp, rfl⟩ := hr.slot k n h
  obtain ⟨p', hp', rfl⟩ := hr.slot k' n h'
  rw [hp] at hp'
  rw [Option.some.inj hp']

variable [DecidableEq ι] [DecidableEq κ]

def Step (r : Registry ι κ π) : Action ι κ π → Registry ι κ π → Prop
  | .propose n p, r' => n ∉ r.issued ∧ r.slot p.kind = none ∧
      r' = ⟨Function.update r.live n (some p), Function.update r.slot p.kind (some n),
        insert n r.issued⟩
  | .execute n k payload now, r' => (∃ due ≤ now, r.live n = some ⟨k, payload, due⟩) ∧
      r.slot k = some n ∧
      r' = ⟨Function.update r.live n none, Function.update r.slot k none, r.issued⟩
  | .cancel n, r' => ∃ p, r.live n = some p ∧
      r' = ⟨Function.update r.live n none,
        if r.slot p.kind = some n then Function.update r.slot p.kind none else r.slot, r.issued⟩
  | .disarm k, r' => r' = { r with slot := Function.update r.slot k none }
  | .idle, r' => r' = r

private theorem of_update_none {α β : Type} [DecidableEq α] {f : α → Option β} {a b : α} {y : β}
    (h : Function.update f a none b = some y) : b ≠ a ∧ f b = some y := by
  rw [Function.update_apply] at h
  split_ifs at h with hb
  exact ⟨hb, h⟩

omit [DecidableEq κ] in
/-- Closing `n` keeps soundness when no slot still points at it. -/
private theorem Sound.close {r : Registry ι κ π} (hr : Sound r) (n : ι) (slot : κ → Option ι)
    (hs : ∀ k m, slot k = some m → m ≠ n ∧ r.slot k = some m) :
    Sound ⟨Function.update r.live n none, slot, r.issued⟩ := by
  refine ⟨?_, fun m p hp => hr.live m p (of_update_none hp).2⟩
  intro k m hk
  obtain ⟨hm, hk⟩ := hs k m hk
  obtain ⟨p, hp, hpk⟩ := hr.slot k m hk
  exact ⟨p, by rw [← hp]; exact Function.update_of_ne hm _ _, hpk⟩

theorem Sound.step {r r' : Registry ι κ π} {a : Action ι κ π} (hr : Sound r) (h : Step r a r') :
    Sound r' := by
  cases a with
  | propose n p =>
    obtain ⟨hn, hs, rfl⟩ := h
    constructor
    · intro k m hk
      change Function.update r.slot p.kind (some n) k = some m at hk
      rw [Function.update_apply] at hk
      split_ifs at hk with hkp
      · obtain rfl := Option.some.inj hk
        exact ⟨p, Function.update_self _ _ _, hkp.symm⟩
      · obtain ⟨q, hq, hqk⟩ := hr.slot k m hk
        have hmn : m ≠ n := fun e => hn (e ▸ hr.live m q hq)
        exact ⟨q, by rw [← hq]; exact Function.update_of_ne hmn _ _, hqk⟩
    · intro m q hq
      change Function.update r.live n (some p) m = some q at hq
      rw [Function.update_apply] at hq
      split_ifs at hq with hm
      · exact hm ▸ Set.mem_insert m r.issued
      · exact Set.mem_insert_of_mem n (hr.live m q hq)
  | execute n k payload now =>
    obtain ⟨-, hs, rfl⟩ := h
    apply hr.close n _
    intro k' m hk'
    obtain ⟨hne, hk'⟩ := of_update_none hk'
    exact ⟨fun e => hne (hr.slot_injective (e ▸ hk') hs), hk'⟩
  | cancel n =>
    obtain ⟨p, hp, rfl⟩ := h
    apply hr.close n _
    intro k m hk
    split_ifs at hk with hs
    · obtain ⟨hne, hk⟩ := of_update_none hk
      exact ⟨fun e => hne (hr.slot_injective (e ▸ hk) hs), hk⟩
    · refine ⟨?_, hk⟩
      intro e
      obtain ⟨q, hq, hqk⟩ := hr.slot k m hk
      rw [e, hp] at hq
      obtain rfl := Option.some.inj hq
      exact hs (by rw [hqk, hk, e])
  | disarm k =>
    obtain rfl := h
    exact ⟨fun k' n h => hr.slot k' n (of_update_none h).2, hr.live⟩
  | idle => obtain rfl := h; exact hr

section History

abbrev Entry (ι κ π : Type) := Record (Registry ι κ π) (Action ι κ π)

def Issues (n : ι) (q : Entry ι κ π) : Prop := ∃ p, q.event = .propose n p

/-- The step executes or cancels `n`. -/
def Closes (n : ι) (q : Entry ι κ π) : Prop :=
  q.event = .cancel n ∨ ∃ k payload now, q.event = .execute n k payload now

/-- The step empties a slot that held `n`, leaving `n` live. -/
def Disarms (n : ι) (q : Entry ι κ π) : Prop := ∃ k, q.event = .disarm k ∧ q.pre.slot k = some n

def Touches (n : ι) (q : Entry ι κ π) : Prop := Issues n q ∨ Closes n q ∨ Disarms n q

/-- `n` was issued for `p` exactly once, and neither executed nor cancelled. -/
def Noticed (rs : List (Entry ι κ π)) (n : ι) (p : Proposal κ π) : Prop :=
  ∃ as q bs, rs = as ++ q :: bs ∧ q.event = .propose n p ∧ (∀ x ∈ as, ¬ Touches n x) ∧
    ∀ x ∈ bs, ¬ Issues n x ∧ ¬ Closes n x

/-- What a run says about the registry it ends in. -/
structure History (rs : List (Entry ι κ π)) (r : Registry ι κ π) : Prop where
  sound : Sound r
  fresh : ∀ n ∉ r.issued, ∀ x ∈ rs, ¬ Touches n x
  noticed : ∀ n p, r.live n = some p → Noticed rs n p
  armed : ∀ k n, r.slot k = some n → ∀ x ∈ rs, ¬ Disarms n x

omit [DecidableEq ι] [DecidableEq κ] in
theorem Noticed.snoc {rs : List (Entry ι κ π)} {n : ι} {p : Proposal κ π} {x : Entry ι κ π}
    (h : Noticed rs n p) (hi : ¬ Issues n x) (hc : ¬ Closes n x) : Noticed (rs ++ [x]) n p := by
  obtain ⟨as, q, bs, rfl, hq, has, hbs⟩ := h
  refine ⟨as, q, bs ++ [x], by simp, hq, has, ?_⟩
  intro y hy
  rcases List.mem_append.1 hy with hy | hy
  · exact hbs y hy
  · obtain rfl := List.mem_singleton.1 hy
    exact ⟨hi, hc⟩

/-- Whatever a step touches has been issued once the step is done. -/
theorem issued_of_touches {r r' : Registry ι κ π} {a : Action ι κ π} {n : ι} (hr : Sound r)
    (h : Step r a r') (ht : Touches n ⟨r, a, r'⟩) : n ∈ r'.issued := by
  rcases ht with ⟨p, rfl⟩ | (rfl | ⟨k, payload, now, rfl⟩) | ⟨k, rfl, hs⟩
  · obtain ⟨-, -, rfl⟩ := h
    exact Set.mem_insert n r.issued
  · obtain ⟨p, hp, rfl⟩ := h
    exact hr.live n p hp
  · obtain ⟨⟨due, -, hp⟩, -, rfl⟩ := h
    exact hr.live n _ hp
  · obtain rfl := h
    obtain ⟨p, hp, -⟩ := hr.slot k n hs
    exact hr.live n p hp

theorem issued_mono {r r' : Registry ι κ π} {a : Action ι κ π} (h : Step r a r') :
    r.issued ⊆ r'.issued := by
  cases a with
  | propose n p => obtain ⟨-, -, rfl⟩ := h; exact Set.subset_insert n _
  | execute n k payload now => obtain ⟨-, -, rfl⟩ := h; exact subset_rfl
  | cancel n => obtain ⟨p, -, rfl⟩ := h; exact subset_rfl
  | disarm k => obtain rfl := h; exact subset_rfl
  | idle => obtain rfl := h; exact subset_rfl

/-- A live proposal was live before the step, or is the one the step issues. -/
theorem live_cases {r r' : Registry ι κ π} {a : Action ι κ π} {n : ι} {p : Proposal κ π}
    (h : Step r a r') (hp : r'.live n = some p) :
    (a = .propose n p ∧ n ∉ r.issued) ∨
      (r.live n = some p ∧ ¬ Closes n (⟨r, a, r'⟩ : Entry ι κ π)) := by
  cases a with
  | propose m q =>
    obtain ⟨hm, -, rfl⟩ := h
    change Function.update r.live m (some q) n = some p at hp
    rw [Function.update_apply] at hp
    split_ifs at hp with hn
    · obtain rfl := Option.some.inj hp
      exact .inl ⟨by rw [hn], hn ▸ hm⟩
    · exact .inr ⟨hp, by simp [Closes]⟩
  | execute m k payload now =>
    obtain ⟨-, -, rfl⟩ := h
    obtain ⟨hn, hp⟩ := of_update_none hp
    exact .inr ⟨hp, by simp [Closes, hn.symm]⟩
  | cancel m =>
    obtain ⟨q, -, rfl⟩ := h
    obtain ⟨hn, hp⟩ := of_update_none hp
    exact .inr ⟨hp, by simp [Closes, hn.symm]⟩
  | disarm k => obtain rfl := h; exact .inr ⟨hp, by simp [Closes]⟩
  | idle => obtain rfl := h; exact .inr ⟨hp, by simp [Closes]⟩

/-- A filled slot was filled before the step, or is the one the step fills. -/
theorem slot_cases {r r' : Registry ι κ π} {a : Action ι κ π} {n : ι} {k : κ} (hr : Sound r)
    (h : Step r a r') (hk : r'.slot k = some n) :
    n ∉ r.issued ∨ (r.slot k = some n ∧ ¬ Disarms n (⟨r, a, r'⟩ : Entry ι κ π)) := by
  cases a with
  | propose m q =>
    obtain ⟨hm, -, rfl⟩ := h
    change Function.update r.slot q.kind (some m) k = some n at hk
    rw [Function.update_apply] at hk
    split_ifs at hk with hkq
    · exact .inl (Option.some.inj hk ▸ hm)
    · exact .inr ⟨hk, by simp [Disarms]⟩
  | execute m k' payload now =>
    obtain ⟨-, -, rfl⟩ := h
    exact .inr ⟨(of_update_none hk).2, by simp [Disarms]⟩
  | cancel m =>
    obtain ⟨q, -, rfl⟩ := h
    change (if r.slot q.kind = some m then Function.update r.slot q.kind none else r.slot) k =
      some n at hk
    split_ifs at hk with hs
    · exact .inr ⟨(of_update_none hk).2, by simp [Disarms]⟩
    · exact .inr ⟨hk, by simp [Disarms]⟩
  | disarm k' =>
    obtain rfl := h
    obtain ⟨hne, hk⟩ := of_update_none hk
    refine .inr ⟨hk, ?_⟩
    rintro ⟨j, hj, hs⟩
    obtain rfl : k' = j := by simpa using hj
    exact hne (hr.slot_injective hk hs)
  | idle => obtain rfl := h; exact .inr ⟨hk, by simp [Disarms]⟩

theorem History.step {rs : List (Entry ι κ π)} {r r' : Registry ι κ π} {a : Action ι κ π}
    (H : History rs r) (h : Step r a r') : History (rs ++ [⟨r, a, r'⟩]) r' := by
  have fresh : ∀ n ∉ r'.issued, ∀ x ∈ rs ++ [⟨r, a, r'⟩], ¬ Touches n x := by
    intro n hn x hx
    rcases List.mem_append.1 hx with hx | hx
    · exact H.fresh n (fun hm => hn (issued_mono h hm)) x hx
    · obtain rfl := List.mem_singleton.1 hx
      exact fun ht => hn (issued_of_touches H.sound h ht)
  refine ⟨H.sound.step h, fresh, ?_, ?_⟩
  · intro n p hp
    rcases live_cases h hp with ⟨rfl, hn⟩ | ⟨hp, hc⟩
    · exact ⟨rs, _, [], rfl, rfl, H.fresh n hn, by simp⟩
    · refine (H.noticed n p hp).snoc ?_ hc
      rintro ⟨q, rfl⟩
      exact h.1 (H.sound.live n p hp)
  · intro k n hk x hx
    rcases slot_cases H.sound h hk with hn | ⟨hk, hd⟩
    · rcases List.mem_append.1 hx with hx | hx
      · exact fun hd => H.fresh n hn x hx (.inr (.inr hd))
      · obtain rfl := List.mem_singleton.1 hx
        rintro ⟨j, -, hs⟩
        obtain ⟨p, hp, -⟩ := H.sound.slot j n hs
        exact hn (H.sound.live n p hp)
    · rcases List.mem_append.1 hx with hx | hx
      · exact H.armed k n hk x hx
      · obtain rfl := List.mem_singleton.1 hx
        exact hd

theorem history_of_run {r₀ r : Registry ι κ π} {rs : List (Entry ι κ π)}
    (hl : ∀ n, r₀.live n = none) (hs : ∀ k, r₀.slot k = none) (run : Trace Step r₀ rs r) :
    History rs r :=
  run.history (I := History)
    ⟨Sound.of_empty hl hs, fun _ _ x hx => by simp at hx, fun n p h => by simp [hl] at h,
      fun k n h => by simp [hs] at h⟩
    fun H h => H.step h

/-- No effect without notice: what is executed was announced once, under the same kind and payload
and with the delay now over, and since then neither closed nor disarmed. -/
theorem no_effect_without_notice {r₀ r r' : Registry ι κ π} {rs : List (Entry ι κ π)} {n : ι}
    {k : κ} {payload : π} {now : ℤ} (hl : ∀ n, r₀.live n = none) (hs : ∀ k, r₀.slot k = none)
    (run : Trace Step r₀ rs r) (h : Step r (.execute n k payload now) r') :
    ∃ due ≤ now, Noticed rs n ⟨k, payload, due⟩ ∧ ∀ x ∈ rs, ¬ Closes n x ∧ ¬ Disarms n x := by
  have H := history_of_run hl hs run
  obtain ⟨⟨due, hdue, hlive⟩, hslot, -⟩ := h
  have hn := H.noticed n _ hlive
  refine ⟨due, hdue, hn, fun x hx => ⟨?_, H.armed k n hslot x hx⟩⟩
  intro hc
  obtain ⟨as, q, bs, rfl, hq, has, hbs⟩ := hn
  rcases List.mem_append.1 hx with hx | hx
  · exact has x hx (.inr (.inl hc))
  · rcases List.mem_cons.1 hx with rfl | hx
    · rcases hc with hc | ⟨_, _, _, hc⟩ <;> rw [hq] at hc <;> cases hc
    · exact (hbs x hx).2 hc

end History

end Registry
