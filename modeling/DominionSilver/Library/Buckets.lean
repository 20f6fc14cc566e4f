import Mathlib.Tactic

/-! Spending in buckets. Amounts are spent at times; the spends fall into
buckets whose starts lie at least a window apart, and no bucket holds more than
the budget. Then no interval of `n` windows sees more than `n + 1` budgets. -/

/-- A time and an amount. -/
abbrev Spend := ℤ × ℕ

/-- The amount spent at times in `[t, u)`. -/
def spentIn (t u : ℤ) (ops : List Spend) : ℕ :=
  ((ops.filter fun op => t ≤ op.1 ∧ op.1 < u).map Prod.snd).sum

theorem spentIn_append (t u : ℤ) (xs ys : List Spend) :
    spentIn t u (xs ++ ys) = spentIn t u xs + spentIn t u ys := by
  unfold spentIn
  rw [List.filter_append, List.map_append, List.sum_append]

/-- Only spends before `u'` count, so an interval may be cut there. -/
theorem spentIn_cut {t u u' : ℤ} {ops : List Spend} (h : ∀ op ∈ ops, op.1 < u') (hu : u' ≤ u) :
    spentIn t u ops = spentIn t u' ops := by
  unfold spentIn
  congr 2
  apply List.filter_congr
  intro op hop
  have := h op hop
  exact decide_eq_decide.2 ⟨fun ⟨h1, _⟩ => ⟨h1, this⟩, fun ⟨h1, h2⟩ => ⟨h1, by omega⟩⟩

theorem spentIn_eq_zero {t u : ℤ} {ops : List Spend} (h : ∀ op ∈ ops, op.1 < t ∨ u ≤ op.1) :
    spentIn t u ops = 0 := by
  unfold spentIn
  rw [List.filter_eq_nil_iff.2 fun op hop => ?_]
  · rfl
  · have := h op hop
    rw [decide_eq_true_eq]
    omega

/-- Spends from a start on, in the order of their times. -/
structure Bucket where
  start : ℤ
  ops : List Spend

def Bucket.total (b : Bucket) : ℕ := (b.ops.map Prod.snd).sum

theorem Bucket.total_snoc (b : Bucket) (op : Spend) :
    total ⟨b.start, b.ops ++ [op]⟩ = b.total + op.2 := by
  simp [total]

theorem Bucket.spentIn_le (b : Bucket) (t u : ℤ) : spentIn t u b.ops ≤ b.total :=
  (List.filter_sublist.map _).sum_le_sum fun _ _ => Nat.zero_le _

/-- All spends, the newest bucket's last. -/
def spends : List Bucket → List Spend
  | [] => []
  | b :: bs => spends bs ++ b.ops

/-- Buckets, newest first: each within the budget `B`, its spends not before its start, and each
at least `w` after the one before it, whose spends it follows. -/
inductive Spaced (w : ℤ) (B : ℕ) : List Bucket → Prop
  | nil : Spaced w B []
  | cons {b bs} (within : b.total ≤ B) (after : ∀ op ∈ b.ops, b.start ≤ op.1)
      (apart : ∀ c ∈ bs, c.start + w ≤ b.start) (before : ∀ op ∈ spends bs, op.1 < b.start)
      (rest : Spaced w B bs) : Spaced w B (b :: bs)

variable {w : ℤ} {B : ℕ} {bs : List Bucket}

theorem Spaced.fresh {t now : ℤ} {amount : ℕ} (h : Spaced w B bs) (hB : amount ≤ B) (ht : t ≤ now)
    (hapart : ∀ c ∈ bs, c.start + w ≤ t) (hbefore : ∀ op ∈ spends bs, op.1 < t) :
    Spaced w B (⟨t, [(now, amount)]⟩ :: bs) := by
  refine .cons ?_ ?_ hapart hbefore h
  · simpa [Bucket.total] using hB
  · intro op hop
    rw [List.mem_singleton.1 hop]; exact ht

theorem Spaced.join {b : Bucket} {now : ℤ} {amount : ℕ} (h : Spaced w B (b :: bs))
    (hB : b.total + amount ≤ B) (ht : b.start ≤ now) :
    Spaced w B (⟨b.start, b.ops ++ [(now, amount)]⟩ :: bs) := by
  cases h with
  | cons within after apart before rest =>
    refine .cons ((Bucket.total_snoc b _).trans_le hB) (fun op hop => ?_) apart before rest
    · rcases List.mem_append.1 hop with hop | hop
      · exact after op hop
      · rw [List.mem_singleton.1 hop]; exact ht

/-- All spends lie before `u` where those of the newest bucket do, and no bucket starts after the
newest. -/
theorem Spaced.newest {b : Bucket} {u : ℤ} (hw : 0 ≤ w) (h : Spaced w B (b :: bs))
    (hu : b.start + w ≤ u) (hops : ∀ op ∈ b.ops, op.1 < u) :
    (∀ c ∈ b :: bs, c.start + w ≤ u) ∧ ∀ op ∈ spends (b :: bs), op.1 < u := by
  cases h with
  | cons within after apart before rest =>
    constructor
    · intro c hc
      rcases List.mem_cons.1 hc with rfl | hc
      · exact hu
      · have := apart c hc; omega
    · intro op hop
      rcases List.mem_append.1 hop with hop | hop
      · have := before op hop; omega
      · exact hops op hop

/-- Buckets that all start a window before `u` spend at most `n` budgets in the `n` windows
before `u`. -/
theorem spentIn_le_of_apart (hw : 1 ≤ w) (h : Spaced w B bs) (n : ℕ) (t u : ℤ)
    (hu : ∀ b ∈ bs, b.start + w ≤ u) (hn : u ≤ t + n * w) :
    spentIn t u (spends bs) ≤ n * B := by
  induction h generalizing n u with
  | nil => exact Nat.zero_le _
  | @cons b bs within after apart before rest ih =>
    rw [spends, spentIn_append]
    have hbu := hu b List.mem_cons_self
    cases n with
    | zero =>
      have hz : u ≤ t := by simpa using hn
      rw [spentIn_eq_zero fun op _ => by omega, spentIn_eq_zero fun op _ => by omega,
        Nat.zero_mul]
    | succ n =>
      have hstart : b.start ≤ t + n * w := by push_cast at hn; linarith
      have hold := ih n b.start apart hstart
      rw [spentIn_cut before (by omega)]
      have hnew := b.spentIn_le t u
      calc spentIn t b.start (spends bs) + spentIn t u b.ops
          ≤ n * B + B := by omega
        _ = (n + 1) * B := by ring

theorem spentIn_le (hw : 1 ≤ w) (h : Spaced w B bs) (n : ℕ) (t : ℤ) :
    spentIn t (t + n * w) (spends bs) ≤ (n + 1) * B := by
  induction h with
  | nil => exact Nat.zero_le _
  | @cons b bs within after apart before rest ih =>
    rw [spends, spentIn_append]
    rcases le_or_gt (t + n * w) b.start with hlate | hin
    · have hnone : spentIn t (t + n * w) b.ops = 0 :=
        spentIn_eq_zero fun op hop => .inr (hlate.trans (after op hop))
      rw [hnone]
      exact ih
    · have hold := spentIn_le_of_apart hw rest n t b.start apart hin.le
      rw [spentIn_cut before hin.le]
      have hnew := b.spentIn_le t (t + n * w)
      calc spentIn t b.start (spends bs) + spentIn t (t + n * w) b.ops
          ≤ n * B + B := by omega
        _ = (n + 1) * B := by ring
