import DominionSilver.Library.Traces

/-! Journals. The steps of a system write entries, and a monitor folds them, one
after another, into an account of its own. Where the entries of every step take
an account of the state before to one of the state after, the journal of a run
takes an account of its first state to one of its last; and where each entry of
a step is true of the account it finds, so is each entry of the journal. -/

namespace Journal

variable {σ ε τ α : Type}

/-- The account once an entry is read, and what an entry says of the account that it finds. -/
structure Monitor (τ α : Type) where
  read : τ → α → τ
  agrees : τ → α → Prop

namespace Monitor

variable (m : Monitor τ α) {t : τ} {a : α} {as bs : List α}

def replay (t : τ) (as : List α) : τ := as.foldl m.read t

/-- Every entry is true of what the ones before it leave. -/
def Consistent (t : τ) (as : List α) : Prop :=
  ∀ before a after, as = before ++ a :: after → m.agrees (m.replay t before) a

@[simp] theorem replay_nil : m.replay t [] = t := rfl

@[simp] theorem replay_cons : m.replay t (a :: as) = m.replay (m.read t a) as := rfl

theorem replay_append : m.replay t (as ++ bs) = m.replay (m.replay t as) bs := List.foldl_append

@[simp] theorem consistent_nil : m.Consistent t [] := by
  intro before a after h
  cases before <;> cases h

@[simp] theorem consistent_cons :
    m.Consistent t (a :: as) ↔ m.agrees t a ∧ m.Consistent (m.read t a) as := by
  constructor
  · intro h
    refine ⟨h [] a as rfl, ?_⟩
    rintro before b after rfl
    exact h (a :: before) b after rfl
  · rintro ⟨ha, h⟩ before b after he
    cases before with
    | nil =>
      obtain ⟨rfl, rfl⟩ := List.cons.inj he
      exact ha
    | cons c before =>
      obtain ⟨rfl, rfl⟩ := List.cons.inj he
      exact h before b after rfl

theorem consistent_append :
    m.Consistent t (as ++ bs) ↔ m.Consistent t as ∧ m.Consistent (m.replay t as) bs := by
  induction as generalizing t with
  | nil => simp
  | cons a as ih => rw [List.cons_append, consistent_cons, consistent_cons, ih, and_assoc]; rfl

/-- The entries `as` take the account `t` to `t'`, each true of what it finds. -/
def Takes (t : τ) (as : List α) (t' : τ) : Prop := m.replay t as = t' ∧ m.Consistent t as

variable {m} in
@[simp] theorem takes_nil {t' : τ} : m.Takes t [] t' ↔ t = t' := by simp [Takes]

variable {m} in
@[simp] theorem takes_cons {t' : τ} :
    m.Takes t (a :: as) t' ↔ m.agrees t a ∧ m.Takes (m.read t a) as t' := by
  simp only [Takes, replay_cons, consistent_cons]
  exact and_left_comm

variable {m} in
theorem Takes.cons {t' : τ} (ha : m.agrees t a) (h : m.Takes (m.read t a) as t') :
    m.Takes t (a :: as) t' := takes_cons.2 ⟨ha, h⟩

variable {m} in
theorem Takes.one {t' : τ} (ha : m.agrees t a) (h : m.read t a = t') : m.Takes t [a] t' :=
  .cons ha (takes_nil.2 h)

theorem Takes.append {t t' t'' : τ} (h : m.Takes t as t') (h' : m.Takes t' bs t'') :
    m.Takes t (as ++ bs) t'' := by
  obtain ⟨rfl, hc⟩ := h
  obtain ⟨rfl, hc'⟩ := h'
  exact ⟨m.replay_append, m.consistent_append.2 ⟨hc, hc'⟩⟩

/-- An entry that the monitor passes over. -/
def Ignores (a : α) : Prop := ∀ t, m.read t a = t ∧ m.agrees t a

variable {m} in
theorem Takes.ignore {t' : τ} (ha : m.Ignores a) (h : m.Takes t as t') : m.Takes t (a :: as) t' :=
  .cons (ha t).2 ((ha t).1.symm ▸ h)

variable {m} in
theorem takes_ignored (h : ∀ a ∈ as, m.Ignores a) : m.Takes t as t := by
  induction as with
  | nil => exact takes_nil.2 rfl
  | cons a as ih =>
    exact .ignore (h a List.mem_cons_self) (ih fun b hb => h b (List.mem_cons_of_mem a hb))

end Monitor

/-- What the steps of a run write. -/
def journal (log : Record σ ε → List α) (rs : List (Record σ ε)) : List α := rs.flatMap log

@[simp] theorem journal_nil (log : Record σ ε → List α) : journal log [] = [] := rfl

theorem journal_snoc (log : Record σ ε → List α) (rs : List (Record σ ε)) (r : Record σ ε) :
    journal log (rs ++ [r]) = journal log rs ++ log r := by
  simp [journal]

/-- A relation between runs, states and accounts that every step keeps with its entries, a run keeps
with its journal. -/
theorem takes_of_run {step : σ → ε → σ → Prop} {m : Monitor τ α} {log : Record σ ε → List α}
    {R : List (Record σ ε) → σ → τ → Prop} {s₀ s : σ} {t₀ : τ} {rs : List (Record σ ε)}
    (h₀ : R [] s₀ t₀)
    (hstep : ∀ {rs s e s' t}, R rs s t → step s e s' →
      ∃ t', m.Takes t (log ⟨s, e, s'⟩) t' ∧ R (rs ++ [⟨s, e, s'⟩]) s' t')
    (run : Trace step s₀ rs s) : ∃ t, m.Takes t₀ (journal log rs) t ∧ R rs s t := by
  induction run with
  | nil => exact ⟨t₀, ⟨rfl, m.consistent_nil⟩, h₀⟩
  | snoc _ last ih =>
    obtain ⟨t, ht, hR⟩ := ih
    obtain ⟨t', ht', hR'⟩ := hstep hR last
    exact ⟨t', by rw [journal_snoc]; exact ht.append m ht', hR'⟩

/-- A view of the state that every step's entries follow, a run's journal follows. -/
theorem follows_of_run {step : σ → ε → σ → Prop} {m : Monitor τ α} {log : Record σ ε → List α}
    {I : σ → Prop} {v : σ → τ} {s₀ s : σ} {rs : List (Record σ ε)} (h₀ : I s₀)
    (hinv : ∀ {s e s'}, I s → step s e s' → I s')
    (hstep : ∀ {s e s'}, I s → step s e s' → m.Takes (v s) (log ⟨s, e, s'⟩) (v s'))
    (run : Trace step s₀ rs s) : m.Takes (v s₀) (journal log rs) (v s) := by
  obtain ⟨t, ht, -, rfl⟩ := takes_of_run (R := fun _ s t => I s ∧ v s = t) ⟨h₀, rfl⟩
    (fun ⟨hI, hv⟩ hs => ⟨_, hv ▸ hstep hI hs, hinv hI hs, rfl⟩) run
  exact ht

end Journal
