import Mathlib.Data.List.GetD
import Mathlib.Tactic

/-! Slices of a list, and the first place where one list stands in another. -/

namespace Slices

variable {α : Type}

/-- The elements from position `start` up to `stop`, or fewer where the list ends. -/
def slice (l : List α) (start stop : ℕ) : List α := (l.drop start).take (stop - start)

theorem length_slice {l : List α} {start stop : ℕ} (h : stop ≤ l.length) :
    (slice l start stop).length = stop - start := by
  rw [slice, List.length_take, List.length_drop]
  omega

theorem slice_append (pre l post : List α) {start stop : ℕ} (h : stop ≤ l.length) :
    slice (pre ++ l ++ post) (pre.length + start) (pre.length + stop) = slice l start stop := by
  unfold slice
  rw [List.append_assoc, List.drop_length_add_append, Nat.add_sub_add_left]
  rcases Nat.le_total stop start with hs | hs
  · rw [Nat.sub_eq_zero_of_le hs, List.take_zero, List.take_zero]
  · rw [List.drop_append_of_le_length (hs.trans h), List.take_append_of_le_length]
    rw [List.length_drop]
    omega

theorem slice_zero (l : List α) (stop : ℕ) : slice l 0 stop = l.take stop := rfl

/-- What is left from `start` on is a slice and what is left after it. -/
theorem drop_eq_slice_append (l : List α) {start stop : ℕ} (h : start ≤ stop) :
    l.drop start = slice l start stop ++ l.drop stop := by
  calc l.drop start = (l.drop start).take (stop - start) ++ (l.drop start).drop (stop - start) :=
        (List.take_append_drop _ _).symm
    _ = slice l start stop ++ l.drop stop := by rw [List.drop_drop, Nat.add_sub_cancel' h]; rfl

theorem take_eq_self_iff {l : List α} {n : ℕ} (h : n ≤ l.length) : l.take n = l ↔ l.length = n := by
  rw [List.take_eq_self_iff]
  omega

/-- A slice at `i` stands between what comes before `i` and what comes after it. -/
theorem eq_append_of_slice {l m : List α} {i : ℕ} (h : slice l i (i + m.length) = m)
    (hi : i ≤ l.length) : ∃ pre post, l = pre ++ m ++ post ∧ pre.length = i := by
  refine ⟨l.take i, l.drop (i + m.length), ?_, List.length_take_of_le hi⟩
  rw [slice, Nat.add_sub_cancel_left] at h
  calc l = l.take i ++ ((l.drop i).take m.length ++ (l.drop i).drop m.length) := by
        rw [List.take_append_drop, List.take_append_drop]
    _ = l.take i ++ m ++ l.drop (i + m.length) := by rw [h, List.drop_drop, List.append_assoc]

theorem slice_eq_iff (d : α) {l m : List α} {i : ℕ} (h : i + m.length ≤ l.length) :
    slice l i (i + m.length) = m ↔ ∀ j < m.length, l.getD (i + j) d = m.getD j d := by
  have hlen : (slice l i (i + m.length)).length = m.length := by rw [length_slice h]; omega
  constructor
  · intro hs j hj
    have hget : (slice l i (i + m.length))[j]? = m[j]? := by rw [hs]
    rw [slice, Nat.add_sub_cancel_left, List.getElem?_take_of_lt hj, List.getElem?_drop] at hget
    rw [List.getD_eq_getElem?_getD, List.getD_eq_getElem?_getD, hget]
  · intro hs
    refine List.ext_getElem hlen fun j hj hj' => ?_
    have hj'' : i + j < l.length := by omega
    have hget := hs j hj'
    rw [List.getD_eq_getElem _ _ hj'', List.getD_eq_getElem _ _ hj'] at hget
    simpa only [slice, List.getElem_take, List.getElem_drop] using hget

/-- The first position from which the elements of `needle` are those of `haystack`. -/
def firstIndex [BEq α] (d : α) (haystack needle : List α) : Option ℕ :=
  (List.range (haystack.length - needle.length + 1)).find? fun i =>
    (List.range needle.length).all fun j => haystack.getD (i + j) d == needle.getD j d

/-- Where `needle` stands in a list, the first place where it does is found. -/
theorem firstIndex_append [BEq α] [LawfulBEq α] (d : α) (pre needle post : List α) :
    ∃ pre' post', pre ++ needle ++ post = pre' ++ needle ++ post' ∧ pre'.length ≤ pre.length ∧
      firstIndex d (pre ++ needle ++ post) needle = some pre'.length := by
  set l := pre ++ needle ++ post with hl
  have hlen : pre.length + needle.length ≤ l.length := by
    rw [hl, List.length_append, List.length_append]
    omega
  have hmatch : ∀ {i}, i + needle.length ≤ l.length →
      (((List.range needle.length).all fun j => l.getD (i + j) d == needle.getD j d) = true ↔
        slice l i (i + needle.length) = needle) := by
    intro i hi
    rw [slice_eq_iff d hi]
    simp only [List.all_eq_true, List.mem_range, beq_iff_eq]
  have hpre : slice l pre.length (pre.length + needle.length) = needle := by
    have hall : slice l (pre.length + 0) (pre.length + needle.length) =
        slice needle 0 needle.length := slice_append pre needle post le_rfl
    rw [Nat.add_zero, slice_zero, List.take_length] at hall
    exact hall
  cases hf : firstIndex d l needle with
  | none =>
    have hno := List.find?_eq_none.1 hf pre.length (List.mem_range.2 (by omega))
    exact absurd ((hmatch hlen).2 hpre) hno
  | some i =>
    obtain ⟨hi, hmem, hfirst⟩ := List.find?_range_eq_some.1 hf
    have hile : i ≤ pre.length := by
      by_contra hlt
      have := hfirst pre.length (Nat.not_le.1 hlt)
      rw [(hmatch hlen).2 hpre] at this
      cases this
    have hs := (hmatch ((Nat.add_le_add_right hile _).trans hlen)).1 hi
    obtain ⟨pre', post', he, rfl⟩ := eq_append_of_slice hs (hile.trans (by omega))
    exact ⟨pre', post', he, hile, rfl⟩

end Slices
