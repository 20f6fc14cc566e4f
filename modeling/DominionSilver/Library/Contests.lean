import Mathlib.Tactic

/-! Plans against an opponent. A plan is a list of moves, fixed in advance; the
opponent replies between them as often as it likes. What no reply upsets is
stable, and a plan leads from one stable condition to the next. -/

namespace Contest

variable {σ μ κ : Type}

/-- A play of a plan. Replies come before its moves, between them and after the last. -/
inductive Play (move : σ → μ → σ → Prop) (reply : σ → σ → Prop) : σ → List μ → σ → Prop
  | done {s} : Play move reply s [] s
  | move {s s' t m ms} (made : move s m s') (rest : Play move reply s' ms t) :
      Play move reply s (m :: ms) t
  | reply {s s' t ms} (made : reply s s') (rest : Play move reply s' ms t) :
      Play move reply s ms t

def Stable (reply : σ → σ → Prop) (P : σ → Prop) : Prop := ∀ s s', P s → reply s s' → P s'

/-- From `P`, every play of the plan ends in `Q`. -/
def Forces (move : σ → μ → σ → Prop) (reply : σ → σ → Prop) (P : σ → Prop) (ms : List μ)
    (Q : σ → Prop) : Prop :=
  ∀ s t, P s → Play move reply s ms t → Q t

variable {move : σ → μ → σ → Prop} {reply : σ → σ → Prop} {P P' Q R : σ → Prop} {s t : σ}
  {m : μ} {ms as bs : List μ}

theorem Play.invariant (hreply : Stable reply P)
    (hmove : ∀ m ∈ ms, ∀ s s', P s → move s m s' → P s') (play : Play move reply s ms t)
    (hs : P s) : P t := by
  induction play with
  | done => exact hs
  | move made _ ih =>
    refine ih (fun m hm => hmove m (List.mem_cons_of_mem _ hm)) ?_
    exact hmove _ List.mem_cons_self _ _ hs made
  | reply made _ ih => exact ih hmove (hreply _ _ hs made)

theorem Play.split (play : Play move reply s (as ++ bs) t) :
    ∃ u, Play move reply s as u ∧ Play move reply u bs t := by
  generalize hms : as ++ bs = ms at play
  induction play generalizing as with
  | done =>
    obtain ⟨rfl, rfl⟩ := List.append_eq_nil_iff.1 hms
    exact ⟨_, .done, .done⟩
  | @move s s' t m ms made rest ih =>
    cases as with
    | nil => exact ⟨s, .done, by rw [← List.nil_append bs, hms]; exact .move made rest⟩
    | cons a as =>
      rw [List.cons_append] at hms
      obtain ⟨rfl, rfl⟩ := List.cons.inj hms
      obtain ⟨u, h1, h2⟩ := ih rfl
      exact ⟨u, .move made h1, h2⟩
  | reply made _ ih =>
    obtain ⟨u, h1, h2⟩ := ih hms
    exact ⟨u, .reply made h1, h2⟩

theorem Stable.or (hP : Stable reply P) (hQ : Stable reply Q) : Stable reply fun s => P s ∨ Q s :=
  fun _ _ hs made => hs.imp (hP _ _ · made) (hQ _ _ · made)

namespace Forces

theorem nil (hP : Stable reply P) : Forces move reply P [] P := by
  intro s t hs play
  exact play.invariant hP (by simp) hs

/-- One move: the replies before it keep `P`, and the move leads on to `P'`. -/
theorem cons (hP : Stable reply P) (hm : ∀ s s', P s → move s m s' → P' s')
    (h : Forces move reply P' ms Q) : Forces move reply P (m :: ms) Q := by
  intro s t hs play
  generalize hplan : m :: ms = plan at play
  induction play with
  | done => cases hplan
  | move made rest =>
    obtain ⟨rfl, rfl⟩ := List.cons.inj hplan
    exact h _ _ (hm _ _ hs made) rest
  | reply made _ ih => exact ih (hP _ _ hs made) hplan

theorem append (h1 : Forces move reply P as Q) (h2 : Forces move reply Q bs R) :
    Forces move reply P (as ++ bs) R := by
  intro s t hs play
  obtain ⟨u, ha, hb⟩ := play.split
  exact h2 _ _ (h1 _ _ hs ha) hb

theorem mono (h : Forces move reply P ms Q) (hP : ∀ s, P' s → P s) (hQ : ∀ s, Q s → R s) :
    Forces move reply P' ms R :=
  fun _ _ hs play => hQ _ (h _ _ (hP _ hs) play)

/-- Moves that each do their own part, and undo none of the others'. -/
theorem each {f : κ → μ} {D : κ → σ → Prop} (hP : Stable reply P)
    (hD : ∀ k, Stable reply fun s => P s ∧ D k s)
    (hmove : ∀ k s s', P s → move s (f k) s' → P s' ∧ D k s')
    (hkeep : ∀ j k s s', P s → D j s → move s (f k) s' → D j s') (ks : List κ) :
    Forces move reply P (ks.map f) fun s => P s ∧ ∀ k ∈ ks, D k s := by
  induction ks using List.reverseRecOn with
  | nil => exact (nil hP).mono (fun _ h => h) fun _ h => ⟨h, by simp⟩
  | append_singleton ks k ih =>
    have hstable : ∀ js : List κ, Stable reply fun s => P s ∧ ∀ j ∈ js, D j s := by
      intro js s s' hs made
      exact ⟨hP _ _ hs.1 made, fun j hj => (hD j _ _ ⟨hs.1, hs.2 j hj⟩ made).2⟩
    rw [List.map_append]
    refine ih.append (cons (hstable ks) ?_ (nil (hstable (ks ++ [k]))))
    intro s s' hs made
    refine ⟨(hmove k _ _ hs.1 made).1, ?_⟩
    intro j hj
    rcases List.mem_append.1 hj with hj | hj
    · exact hkeep j k _ _ hs.1 (hs.2 j hj) made
    · obtain rfl := List.mem_singleton.1 hj
      exact (hmove j _ _ hs.1 made).2

end Forces

end Contest
