import Mathlib.Tactic

/-! Runs of a step relation, with every state they pass through. What one step
preserves a run preserves, what one step adds a run sums up, and a run of one
system is a run of any system that simulates it step by step. A condition that
only some steps bring about points back to the last of them. -/

/-- One step of a run: the state before, what happened, the state after. -/
structure Record (σ ε : Type) where
  pre : σ
  event : ε
  post : σ

inductive Trace {σ ε : Type} (step : σ → ε → σ → Prop) (s₀ : σ) : List (Record σ ε) → σ → Prop
  | nil : Trace step s₀ [] s₀
  | snoc {rs s e s'} (run : Trace step s₀ rs s) (last : step s e s') :
      Trace step s₀ (rs ++ [⟨s, e, s'⟩]) s'

namespace Trace

variable {σ ε τ δ : Type} {step : σ → ε → σ → Prop} {s₀ s : σ} {rs as bs : List (Record σ ε)}
  {r : Record σ ε}

/-- What holds at the start and survives every step holds at the end. -/
theorem invariant {I : σ → Prop} (h₀ : I s₀)
    (hstep : ∀ {s e s'}, I s → step s e s' → I s') (run : Trace step s₀ rs s) : I s := by
  induction run with
  | nil => exact h₀
  | snoc _ last ih => exact hstep ih last

/-- The records of a run are its steps, each reached by the ones before it. -/
theorem split (run : Trace step s₀ (as ++ r :: bs) s) :
    Trace step s₀ as r.pre ∧ step r.pre r.event r.post ∧ Trace step r.post bs s := by
  generalize hrs : as ++ r :: bs = rs at run
  induction run generalizing bs with
  | nil => simp at hrs
  | @snoc rs t e t' run last ih =>
    rcases List.eq_nil_or_concat bs with rfl | ⟨cs, c, rfl⟩
    · obtain ⟨rfl, hr⟩ := List.append_inj' hrs rfl
      obtain rfl := List.singleton_inj.1 hr
      exact ⟨run, last, nil⟩
    · rw [List.concat_eq_append, ← List.cons_append, ← List.append_assoc] at hrs
      obtain ⟨hpre, hc⟩ := List.append_inj' hrs rfl
      obtain rfl := List.singleton_inj.1 hc
      obtain ⟨h1, h2, h3⟩ := ih hpre
      exact ⟨h1, h2, by rw [List.concat_eq_append]; exact h3.snoc last⟩

theorem step_of_mem (run : Trace step s₀ rs s) (h : r ∈ rs) :
    ∃ as, Trace step s₀ as r.pre ∧ step r.pre r.event r.post := by
  obtain ⟨as, bs, rfl⟩ := List.append_of_mem h
  exact ⟨as, run.split.1, run.split.2.1⟩

theorem append (h1 : Trace step s₀ as s) {t : σ} (h2 : Trace step s bs t) :
    Trace step s₀ (as ++ bs) t := by
  induction h2 with
  | nil => rw [List.append_nil]; exact h1
  | snoc _ last ih => rw [← List.append_assoc]; exact ih.snoc last

/-- An invariant that a run keeps together with what its records say of each other. -/
theorem history {I : List (Record σ ε) → σ → Prop} (h₀ : I [] s₀)
    (hstep : ∀ {rs s e s'}, I rs s → step s e s' → I (rs ++ [⟨s, e, s'⟩]) s')
    (run : Trace step s₀ rs s) : I rs s := by
  induction run with
  | nil => exact h₀
  | snoc _ last ih => exact hstep ih last

/-- What every step but those with `q` keeps, a run without such steps keeps. -/
theorem kept {B : σ → Prop} {q : Record σ ε → Prop} (h₀ : B s₀)
    (hstep : ∀ {s e s'}, B s → step s e s' → ¬ q ⟨s, e, s'⟩ → B s')
    (run : Trace step s₀ rs s) (hq : ∀ x ∈ rs, ¬ q x) : B s := by
  induction run with
  | nil => exact h₀
  | snoc _ last ih =>
    refine hstep (ih fun x hx => hq x (List.mem_append_left _ hx)) last (hq _ ?_)
    exact List.mem_append_right _ List.mem_cons_self

/-- A reflexive and transitive relation that every step with `p` stays in, a run of such steps
stays in. -/
theorem related {R : σ → σ → Prop} {I : σ → Prop} {p : Record σ ε → Prop} (hrefl : ∀ s, R s s)
    (htrans : ∀ {a b c}, R a b → R b c → R a c) (h₀ : I s₀)
    (hinv : ∀ {s e s'}, I s → step s e s' → I s')
    (hstep : ∀ {s e s'}, I s → step s e s' → p ⟨s, e, s'⟩ → R s s')
    (run : Trace step s₀ rs s) (hp : ∀ x ∈ rs, p x) : R s₀ s := by
  induction run with
  | nil => exact hrefl _
  | snoc run last ih =>
    have hlast := hstep (run.invariant h₀ hinv) last (hp _ List.mem_concat_self)
    exact htrans (ih fun x hx => hp x (List.mem_append_left _ hx)) hlast

/-- A quantity that moves by `flow` at each step moves by the sum of the flows over a run. -/
theorem sum_flow {I : σ → Prop} {f : σ → ℤ} {flow : Record σ ε → ℤ} (h₀ : I s₀)
    (hinv : ∀ {s e s'}, I s → step s e s' → I s')
    (hflow : ∀ {s e s'}, I s → step s e s' → f s' = f s + flow ⟨s, e, s'⟩)
    (run : Trace step s₀ rs s) : f s = f s₀ + (rs.map flow).sum := by
  induction run with
  | nil => simp
  | snoc run last ih =>
    rw [hflow (run.invariant h₀ hinv) last, ih, List.map_append, List.sum_append]
    simp [add_assoc]

/-- Stepwise simulation: `α` reads a state and `l` a step of the simulating system. -/
theorem simulates {step' : τ → δ → τ → Prop} {I : σ → Prop} {α : σ → τ}
    {l : Record σ ε → δ} (h₀ : I s₀) (hinv : ∀ {s e s'}, I s → step s e s' → I s')
    (hsim : ∀ {s e s'}, I s → step s e s' → step' (α s) (l ⟨s, e, s'⟩) (α s'))
    (run : Trace step s₀ rs s) :
    Trace step' (α s₀) (rs.map fun r => ⟨α r.pre, l r, α r.post⟩) (α s) := by
  induction run with
  | nil => exact nil
  | snoc run last ih =>
    rw [List.map_append]
    exact ih.snoc (hsim (run.invariant h₀ hinv) last)

/-- Where each step can be matched, a run is matched event by event. -/
theorem matched {step' : τ → ε → τ → Prop} {R : σ → τ → Prop} {t₀ : τ} (h₀ : R s₀ t₀)
    (hmatch : ∀ {s e s' t}, R s t → step s e s' → ∃ t', step' t e t' ∧ R s' t')
    (run : Trace step s₀ rs s) : ∃ rs' t, Trace step' t₀ rs' t ∧
      rs'.map Record.event = rs.map Record.event ∧ R s t := by
  induction run with
  | nil => exact ⟨[], t₀, nil, rfl, h₀⟩
  | snoc run last ih =>
    obtain ⟨rs', t, run', hevents, hR⟩ := ih
    obtain ⟨t', hlast, hR'⟩ := hmatch hR last
    refine ⟨_, t', run'.snoc hlast, ?_, hR'⟩
    rw [List.map_append, List.map_append, hevents]
    rfl

section Since

/-- Some record has `p`, and none after it has `q`. -/
def Since (p q : Record σ ε → Prop) (rs : List (Record σ ε)) : Prop :=
  ∃ as r bs, rs = as ++ r :: bs ∧ p r ∧ ∀ x ∈ bs, ¬ q x

variable {p q : Record σ ε → Prop}

theorem Since.now (hp : p r) : Since p q (rs ++ [r]) := ⟨rs, r, [], rfl, hp, nofun⟩

theorem Since.snoc {x : Record σ ε} (h : Since p q rs) (hx : ¬ q x) : Since p q (rs ++ [x]) := by
  obtain ⟨as, r, bs, rfl, hp, hbs⟩ := h
  refine ⟨as, r, bs ++ [x], by simp, hp, ?_⟩
  intro y hy
  rcases List.mem_append.1 hy with hy | hy
  · exact hbs y hy
  · exact List.mem_singleton.1 hy ▸ hx

theorem Since.imp {p' : Record σ ε → Prop} (h : Since p q rs) (hp : ∀ r ∈ rs, p r → p' r) :
    Since p' q rs := by
  obtain ⟨as, r, bs, rfl, hr, hbs⟩ := h
  exact ⟨as, r, bs, rfl, hp r (by simp) hr, hbs⟩

/-- A condition that did not hold at the start and that only `p` steps bring about, each `q` step
being such a step or an end to it, has held since a `p` step with no `q` step after it. -/
theorem since {A : σ → Prop} (h₀ : ¬ A s₀)
    (hstep : ∀ {s e s'}, step s e s' → A s' → p ⟨s, e, s'⟩ ∨ (A s ∧ ¬ q ⟨s, e, s'⟩))
    (run : Trace step s₀ rs s) (hA : A s) : Since p q rs := by
  induction run with
  | nil => exact absurd hA h₀
  | snoc _ last ih =>
    rcases hstep last hA with hp | ⟨hA, hq⟩
    · exact .now hp
    · exact (ih hA).snoc hq

end Since

end Trace
