import DominionSilver.Spec.Amounts

/-! The characters of digits, and a number library that does what is documented and throws an error
wherever nothing is. -/

namespace DominionSilver

open Decimals Doubles JsString

section Digits

variable {ds : List ℕ} {d : ℕ} {u : UInt16}

theorem toNat_digitUnit (h : d < 10) : (digitUnit d).toNat = 48 + d :=
  UInt16.toNat_ofNat_of_lt' (show 48 + d < 65536 by omega)

theorem isDigit_iff : isDigit u = true ↔ 48 ≤ u.toNat ∧ u.toNat ≤ 57 := by
  simp only [isDigit, Bool.and_eq_true, decide_eq_true_eq, UInt16.le_iff_toNat_le]
  rfl

theorem isDigit_digitUnit (h : d < 10) : isDigit (digitUnit d) = true := by
  rw [isDigit_iff, toNat_digitUnit h]
  omega

theorem all_isDigit (h : Digits ds) : ∀ u ∈ ds.map digitUnit, isDigit u = true := by
  intro u hu
  obtain ⟨d, hd, rfl⟩ := List.mem_map.1 hu
  exact isDigit_digitUnit (h d hd)

end Digits

namespace Reference

def ofString (s : JsString) : Option BN :=
  if s ≠ [] ∧ s.all isDigit then some (value (s.map fun u => u.toNat - 48)) else none

theorem ofString_digits (ds : List ℕ) (hne : ds ≠ []) (h : Digits ds) :
    ofString (ds.map digitUnit) = some (value ds : ℤ) := by
  have hback : (ds.map digitUnit).map (fun u => u.toNat - 48) = ds := by
    rw [List.map_map]
    refine (List.map_congr_left fun d hd => ?_).trans (List.map_id ds)
    rw [Function.comp_apply, toNat_digitUnit (h d hd), Nat.add_sub_cancel_left, id]
  unfold ofString
  rw [if_pos ⟨by simpa using hne, List.all_eq_true.2 (all_isDigit h)⟩, hback]

instance bnJs : BnJs where
  ofString := ofString
  toNumber a := if Safe a then some a else none
  muln a n := if 0 ≤ n ∧ n < 0x4000000 then some (a * n) else none
  divn a n := if 0 < n ∧ n < 0x4000000 then some (a.tdiv n) else none
  gtn a n := if 0 ≤ n ∧ n < 0x4000000 then some (decide (n < a)) else none
  ofString_digits := ofString_digits
  toNumber_eq _ := rfl
  muln_eq _ _ h := by simp only [h, true_and]
  divn_eq _ _ h := by simp only [h, true_and]
  gtn_eq _ _ h hlt := if_pos ⟨h, hlt⟩

end Reference

end DominionSilver
