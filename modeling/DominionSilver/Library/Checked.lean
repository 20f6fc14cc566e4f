import Mathlib.Data.UInt
import Mathlib.Tactic

/-! Checked arithmetic on fixed-width words and the inversion of fallible
programs. Every operation is read through the value of a word, so that the
arithmetic side conditions of a program are facts about natural numbers. -/

/-- A fixed-width unsigned machine word of `width` bytes, seen through its value. -/
class Word (α : Type) where
  width : ℕ
  size : ℕ
  size_eq : size = 256 ^ width
  toNat : α → ℕ
  ofNat : ℕ → α
  toNat_lt : ∀ a, toNat a < size
  toNat_ofNat : ∀ n, n < size → toNat (ofNat n) = n
  toNat_injective : Function.Injective toNat

instance : Word UInt8 where
  width := 1
  size := 2 ^ 8
  size_eq := by norm_num
  toNat := UInt8.toNat
  ofNat := UInt8.ofNat
  toNat_lt := UInt8.toNat_lt
  toNat_ofNat _ h := UInt8.toNat_ofNat_of_lt' h
  toNat_injective _ _ h := UInt8.toNat_inj.1 h

instance : Word UInt16 where
  width := 2
  size := 2 ^ 16
  size_eq := by norm_num
  toNat := UInt16.toNat
  ofNat := UInt16.ofNat
  toNat_lt := UInt16.toNat_lt
  toNat_ofNat _ h := UInt16.toNat_ofNat_of_lt' h
  toNat_injective _ _ h := UInt16.toNat_inj.1 h

instance : Word UInt32 where
  width := 4
  size := 2 ^ 32
  size_eq := by norm_num
  toNat := UInt32.toNat
  ofNat := UInt32.ofNat
  toNat_lt := UInt32.toNat_lt
  toNat_ofNat _ h := UInt32.toNat_ofNat_of_lt' h
  toNat_injective _ _ h := UInt32.toNat_inj.1 h

instance : Word UInt64 where
  width := 8
  size := 2 ^ 64
  size_eq := by norm_num
  toNat := UInt64.toNat
  ofNat := UInt64.ofNat
  toNat_lt := UInt64.toNat_lt
  toNat_ofNat _ h := UInt64.toNat_ofNat_of_lt' h
  toNat_injective _ _ h := UInt64.toNat_inj.1 h

namespace Checked

section Words

variable {α : Type} [Word α]

/-- The word with value `n`, if `n` fits. -/
def tryFrom (α : Type) [Word α] (n : ℕ) : Option α :=
  if n < Word.size α then some (Word.ofNat n) else none

theorem tryFrom_eq_some {n : ℕ} {a : α} : tryFrom α n = some a ↔ Word.toNat a = n := by
  unfold tryFrom
  constructor
  · intro h
    split_ifs at h with hn
    obtain rfl := Option.some.inj h
    exact Word.toNat_ofNat n hn
  · rintro rfl
    rw [if_pos (Word.toNat_lt a)]
    exact congrArg some (Word.toNat_injective (Word.toNat_ofNat _ (Word.toNat_lt a)))

def checkedAdd (a b : α) : Option α := tryFrom α (Word.toNat a + Word.toNat b)

def checkedSub (a b : α) : Option α :=
  if Word.toNat b ≤ Word.toNat a then tryFrom α (Word.toNat a - Word.toNat b) else none

/-- The sum, or the largest word where it does not fit. -/
def saturatingAdd (a b : α) : α := Word.ofNat (min (Word.toNat a + Word.toNat b) (Word.size α - 1))

def saturatingSub (a b : α) : α := Word.ofNat (Word.toNat a - Word.toNat b)

theorem checkedAdd_eq_some {a b c : α} :
    checkedAdd a b = some c ↔ Word.toNat c = Word.toNat a + Word.toNat b := tryFrom_eq_some

theorem checkedSub_eq_some {a b c : α} :
    checkedSub a b = some c ↔ Word.toNat c + Word.toNat b = Word.toNat a := by
  unfold checkedSub
  split_ifs with h
  · rw [tryFrom_eq_some]; omega
  · simp only [false_iff]; omega

theorem checkedSub_eq_none {a b : α} :
    checkedSub a b = none ↔ Word.toNat a < Word.toNat b := by
  unfold checkedSub tryFrom
  have := Word.toNat_lt a
  split_ifs with h h' <;> simp <;> omega

theorem exists_checkedAdd {a b : α} (h : Word.toNat a + Word.toNat b < Word.size α) :
    ∃ c, checkedAdd a b = some c :=
  ⟨Word.ofNat _, checkedAdd_eq_some.2 (Word.toNat_ofNat _ h)⟩

theorem exists_checkedSub {a b : α} (h : Word.toNat b ≤ Word.toNat a) :
    ∃ c, checkedSub a b = some c :=
  Option.ne_none_iff_exists'.1 fun hn => (checkedSub_eq_none.1 hn).not_ge h

theorem toNat_saturatingSub (a b : α) :
    Word.toNat (saturatingSub a b) = Word.toNat a - Word.toNat b :=
  Word.toNat_ofNat _ (lt_of_le_of_lt (Nat.sub_le _ _) (Word.toNat_lt a))

theorem toNat_saturatingAdd (a b : α) :
    Word.toNat (saturatingAdd a b) = min (Word.toNat a + Word.toNat b) (Word.size α - 1) :=
  Word.toNat_ofNat _ (by have := Word.toNat_lt a; omega)

end Words

@[simp] theorem word_uint8 (a : UInt8) : Word.toNat a = a.toNat := rfl
@[simp] theorem word_uint64 (a : UInt64) : Word.toNat a = a.toNat := rfl

/-- The two's complement range of a 64-bit signed word. -/
def I64 (z : ℤ) : Prop := -2 ^ 63 ≤ z ∧ z < 2 ^ 63

instance (z : ℤ) : Decidable (I64 z) := inferInstanceAs (Decidable (_ ∧ _))

def checkedI64 (z : ℤ) : Option ℤ := if I64 z then some z else none

/-- The nearest 64-bit signed value. -/
def saturatingI64 (z : ℤ) : ℤ := max (-2 ^ 63) (min z (2 ^ 63 - 1))

theorem checkedI64_eq_some {z y : ℤ} : checkedI64 z = some y ↔ I64 z ∧ y = z := by
  unfold checkedI64
  split_ifs with h
  · simp only [Option.some.injEq, h, true_and, eq_comm]
  · simp only [h, false_and]

theorem saturatingI64_of_I64 {z : ℤ} (h : I64 z) : saturatingI64 z = z := by
  obtain ⟨hl, hu⟩ := h
  unfold saturatingI64; omega

theorem saturatingI64_le {z : ℤ} (h : -2 ^ 63 ≤ z) : saturatingI64 z ≤ z := by
  unfold saturatingI64; omega

def checkedU128 (n : ℕ) : Option ℕ := if n < 2 ^ 128 then some n else none

theorem checkedU128_eq_some {n m : ℕ} : checkedU128 n = some m ↔ n < 2 ^ 128 ∧ m = n := by
  unfold checkedU128
  split_ifs with h
  · simp only [Option.some.injEq, h, true_and, eq_comm]
  · simp only [h, false_and]

theorem checkedU128_of_lt {n : ℕ} (h : n < 2 ^ 128) : checkedU128 n = some n := if_pos h

section Fallible

variable {ε α β : Type}

/-- The value of an option, or the given error. -/
def okOr (o : Option α) (e : ε) : Except ε α :=
  match o with
  | some a => .ok a
  | none => .error e

def guardOr (p : Prop) [Decidable p] (e : ε) : Except ε Unit := if p then .ok () else .error e

theorem bind_ok {x : Except ε α} {f : α → Except ε β} {b : β} :
    (x >>= f) = .ok b ↔ ∃ a, x = .ok a ∧ f a = .ok b := by
  cases x with
  | error e => simp only [bind, Except.bind, reduceCtorEq, false_and, exists_false]
  | ok a => simp only [bind, Except.bind, Except.ok.injEq, exists_eq_left']

theorem pure_ok {a b : α} : (pure a : Except ε α) = .ok b ↔ a = b := by
  simp only [pure, Except.pure, Except.ok.injEq]

theorem guardOr_ok {p : Prop} [Decidable p] {e : ε} {u : Unit} : guardOr p e = .ok u ↔ p := by
  unfold guardOr
  split_ifs with h <;> simp only [h]

theorem okOr_ok {o : Option α} {e : ε} {a : α} : okOr o e = .ok a ↔ o = some a := by
  cases o <;> simp only [okOr, reduceCtorEq, Except.ok.injEq, Option.some.injEq]

theorem bind_error {x : Except ε α} {f : α → Except ε β} {e : ε} :
    (x >>= f) = .error e ↔ x = .error e ∨ ∃ a, x = .ok a ∧ f a = .error e := by
  cases x with
  | error e' => simp only [bind, Except.bind, Except.error.injEq, reduceCtorEq, false_and,
      exists_false, or_false]
  | ok a => simp only [bind, Except.bind, reduceCtorEq, Except.ok.injEq, exists_eq_left', false_or]

theorem guardOr_error {p : Prop} [Decidable p] {e e' : ε} :
    guardOr p e = .error e' ↔ ¬ p ∧ e = e' := by
  unfold guardOr
  split_ifs with h <;> simp [h]

theorem okOr_error {o : Option α} {e e' : ε} : okOr o e = .error e' ↔ o = none ∧ e = e' := by
  cases o <;> simp [okOr]

theorem exists_unit {p : Unit → Prop} : (∃ u, p u) ↔ p () := ⟨fun ⟨(), h⟩ => h, fun h => ⟨(), h⟩⟩

end Fallible

end Checked
