import DominionSilver.Sanity.Numbers

/-! Amounts on the screen. The parser reads a plain decimal down to the atomic unit below it, and any
other text as zero. The formatter writes an amount as such a decimal with commas in it, so what it
writes is read back exactly. -/

namespace DominionSilver

open Doubles Decimals Slices JsString

/-- The text is digits with at most one point, and spells `v`. Either side may be empty. -/
def Plain (s : JsString) (v : ℚ) : Prop :=
  ∃ whole frac, Digits whole ∧ Digits frac ∧
    (s = whole.map digitUnit ∧ frac = [] ∨
      s = whole.map digitUnit ++ unit '.' :: frac.map digitUnit) ∧
    v = decimal whole frac

section Units

variable {ds whole frac : List ℕ} {d : ℕ} {u : UInt16} {s : JsString}

theorem digitUnit_sub (h : isDigit u = true) : digitUnit (u.toNat - 48) = u := by
  obtain ⟨hl, hu⟩ := isDigit_iff.1 h
  apply UInt16.toNat_inj.1
  rw [toNat_digitUnit (by omega)]
  omega

theorem exists_digits (h : ∀ u ∈ s, isDigit u = true) :
    ∃ ds, Digits ds ∧ s = ds.map digitUnit := by
  refine ⟨s.map fun u => u.toNat - 48, ?_, ?_⟩
  · intro d hd
    obtain ⟨u, hu, rfl⟩ := List.mem_map.1 hd
    have := (isDigit_iff.1 (h u hu)).2
    omega
  · rw [List.map_map]
    exact (List.map_id s).symm.trans (List.map_congr_left fun u hu => (digitUnit_sub (h u hu)).symm)

theorem notMem_digits (h : Digits ds) (hu : isDigit u = false) : u ∉ ds.map digitUnit := by
  intro hmem
  rw [all_isDigit h u hmem] at hu
  cases hu

theorem ofString_or_zero [BnJs] (h : Digits ds) :
    BnJs.ofString (if ds.map digitUnit = [] then JsString.ofString "0" else ds.map digitUnit) =
      some (value ds : ℤ) := by
  split_ifs with hnil
  · rw [List.map_eq_nil_iff.1 hnil]
    exact BnJs.ofString_digits [0] (List.cons_ne_nil _ _) (by simp [Digits])
  · exact BnJs.ofString_digits ds (fun he => hnil (by rw [he]; rfl)) h

theorem trim_eq_self (h : ∀ u ∈ s, isSpace u = false) : trim s = s := by
  have hdrop : s.dropWhile isSpace = s := by
    cases s with
    | nil => rfl
    | cons u s =>
      rw [List.dropWhile_cons_of_neg]
      rw [h u List.mem_cons_self]
      decide
  rw [trim, hdrop, List.rdropWhile_eq_self_iff]
  intro hl hlast
  rw [h _ (List.getLast_mem hl)] at hlast
  cases hlast

end Units

section Parser

variable {ds whole frac : List ℕ} {s t : JsString} {v : ℚ}

theorem split_plain (hw : Digits whole) (hf : Digits frac)
    (ht : t = whole.map digitUnit ∧ frac = [] ∨
      t = whole.map digitUnit ++ unit '.' :: frac.map digitUnit) :
    (t.splitOn (unit '.')).getD 0 (JsString.ofString "0") = whole.map digitUnit ∧
      (t.splitOn (unit '.')).getD 1 (JsString.ofString "") = frac.map digitUnit := by
  have hwhole := notMem_digits hw (u := unit '.') (by decide)
  have hfrac := notMem_digits hf (u := unit '.') (by decide)
  rcases ht with ⟨rfl, rfl⟩ | rfl
  · rw [List.splitOn_eq_singleton hwhole]
    exact ⟨rfl, rfl⟩
  · rw [List.splitOn_append_cons_self_of_not_mem hwhole, List.splitOn_eq_singleton hfrac]
    exact ⟨rfl, rfl⟩

theorem isPlain_iff : PublicApp.isPlain t = true ↔ ∃ v, Plain t v := by
  constructor
  · intro h
    obtain ⟨whole, hwhole, htake⟩ := exists_digits (s := t.takeWhile isDigit)
      fun u hu => List.mem_takeWhile_imp hu
    have hparts := List.takeWhile_append_dropWhile (p := isDigit) (l := t)
    unfold PublicApp.isPlain at h
    split at h
    · next hnil =>
      rw [hnil, List.append_nil, htake] at hparts
      exact ⟨_, whole, [], hwhole, nofun, .inl ⟨hparts.symm, rfl⟩, rfl⟩
    · next u rest hrest =>
      obtain ⟨hu, hall⟩ := Bool.and_eq_true_iff.1 h
      obtain ⟨frac, hfrac, rfl⟩ := exists_digits (List.all_eq_true.1 hall)
      rw [hrest, htake, of_decide_eq_true hu] at hparts
      exact ⟨_, whole, frac, hwhole, hfrac, .inr hparts.symm, rfl⟩
  · rintro ⟨v, whole, frac, hw, hf, ht, -⟩
    unfold PublicApp.isPlain
    rcases ht with ⟨rfl, -⟩ | rfl
    · rw [List.dropWhile_eq_nil_iff.2 (all_isDigit hw)]
    · rw [List.dropWhile_append_of_pos (all_isDigit hw),
        List.dropWhile_cons_of_neg (by decide : ¬ isDigit (unit '.') = true)]
      exact Bool.and_eq_true_iff.2 ⟨decide_eq_true rfl, List.all_eq_true.2 (all_isDigit hf)⟩

theorem parse_of_plain [BnJs] (h : Plain (trim s) v) :
    PublicApp.parseDecimalToAtomic6 s = some ⌊v * 10 ^ 6⌋ := by
  have hplain := isPlain_iff.2 ⟨v, h⟩
  obtain ⟨whole, frac, hw, hf, ht, rfl⟩ := h
  obtain ⟨hwhole, hfrac⟩ := split_plain hw hf ht
  have hpadded : slice (frac.map digitUnit ++ JsString.ofString "000000") 0 6 =
      (truncated 6 frac).map digitUnit := by
    rw [truncated, List.map_take, List.map_append]
    rfl
  have hdigits : Digits (truncated 6 frac) := fun d hd =>
    (hf.append (digits_zeros 6)) d (List.mem_of_mem_take hd)
  simp only [PublicApp.parseDecimalToAtomic6, hplain, Bool.true_eq_false, if_false, hwhole, hfrac,
    hpadded, ofString_or_zero hw, ofString_or_zero hdigits, floor_decimal 6 hf]
  refine congrArg some ?_
  push_cast
  norm_num

theorem parse_of_not_plain [BnJs] (h : ¬ ∃ v, Plain (trim s) v) :
    PublicApp.parseDecimalToAtomic6 s = some 0 := by
  have hplain : PublicApp.isPlain (trim s) = false :=
    Bool.eq_false_of_not_eq_true fun hp => h (isPlain_iff.1 hp)
  simp only [PublicApp.parseDecimalToAtomic6, hplain, if_true]
  rfl

theorem Plain.trim_eq (h : Plain s v) : trim s = s := by
  obtain ⟨whole, frac, hw, hf, hs, -⟩ := h
  have hdigits : ∀ {ds}, Digits ds → ∀ u ∈ ds.map digitUnit, isSpace u = false := by
    intro ds hds u hu
    obtain ⟨d, hd, rfl⟩ := List.mem_map.1 hu
    exact (by decide : ∀ d < 10, isSpace (digitUnit d) = false) d (hds d hd)
  refine trim_eq_self fun u hu => ?_
  rcases hs with ⟨rfl, -⟩ | rfl
  · exact hdigits hw u hu
  · rcases List.mem_append.1 hu with hu | hu
    · exact hdigits hw u hu
    · rcases List.mem_cons.1 hu with rfl | hu
      · decide
      · exact hdigits hf u hu

end Parser

section Formatter

variable {ds : List ℕ} {n : ℕ} {raw : UInt64}

/-- The text without its commas. -/
def ungrouped (s : JsString) : JsString := s.filter (· ≠ unit ',')

theorem ungrouped_digits (h : Digits ds) : ungrouped (ds.map digitUnit) = ds.map digitUnit :=
  List.filter_eq_self.2 fun u hu => decide_eq_true fun he =>
    notMem_digits h (u := unit ',') (by decide) (he ▸ hu)

theorem ungrouped_toLocaleString (n : ℕ) :
    ungrouped (toLocaleString n) = (numeral n).map digitUnit := by
  have hcomma : unit ',' ∉ (JsString.ofNat n).reverse := fun h =>
    notMem_digits (digits_numeral n) (by decide) (List.mem_reverse.1 h)
  rw [ungrouped, toLocaleString, List.filter_reverse, filter_group hcomma, List.reverse_reverse]
  rfl

theorem dropWhile_zero (h : Digits ds) : (ds.map digitUnit).dropWhile (· = unit '0') =
    (ds.dropWhile (· = 0)).map digitUnit := by
  induction ds with
  | nil => rfl
  | cons d ds ih =>
    have hd : digitUnit d = unit '0' ↔ d = 0 :=
      (by decide : ∀ d < 10, (digitUnit d = unit '0' ↔ d = 0)) d (h d List.mem_cons_self)
    by_cases h0 : d = 0
    · rw [List.map_cons, List.dropWhile_cons_of_pos (by simpa using hd.2 h0),
        List.dropWhile_cons_of_pos (by simpa using h0)]
      exact ih fun e he => h e (List.mem_cons_of_mem d he)
    · rw [List.map_cons, List.dropWhile_cons_of_neg (by simpa using mt hd.1 h0),
        List.dropWhile_cons_of_neg (by simpa using h0), List.map_cons]

theorem rdropWhile_zero (h : Digits ds) : (ds.map digitUnit).rdropWhile (· = unit '0') =
    (ds.rdropWhile (· = 0)).map digitUnit := by
  have hrev : Digits ds.reverse := fun d hd => h d (List.mem_reverse.1 hd)
  rw [List.rdropWhile, ← List.map_reverse, dropWhile_zero hrev, ← List.map_reverse]
  rfl

theorem padStart_ofNat (n width : ℕ) :
    padStart (JsString.ofNat n) width (unit '0') = (pad width (numeral n)).map digitUnit := by
  rw [padStart, JsString.ofNat, List.length_map, pad, List.map_append, List.map_replicate]
  rfl

/-- The decimals that are shown, without the zeros at the end. -/
def shown (n : ℕ) : List ℕ := (pad 6 (numeral n)).rdropWhile (· = 0)

theorem formatSilv_eq [BnJs] (raw : UInt64) :
    AdminApp.formatSilv (BN.ofU64 raw) = some (toLocaleString (raw.toNat / 1000000) ++
      if shown (raw.toNat % 1000000) = [] then []
      else unit '.' :: (shown (raw.toNat % 1000000)).map digitUnit) := by
  have hraw : BN.ofU64 raw = (raw.toNat : ℤ) := rfl
  have hlt := raw.toNat_lt
  have hneg : decide ((raw.toNat : ℤ) < 0) = false := by simp
  have hdiv : (raw.toNat : ℤ).tdiv 1000000 = (raw.toNat / 1000000 : ℕ) := rfl
  have hmod : (raw.toNat : ℤ).tmod 1000000 = (raw.toNat % 1000000 : ℕ) := rfl
  have hwhole : ofInt ((raw.toNat / 1000000 : ℕ) : ℤ) = (raw.toNat / 1000000 : ℕ) :=
    ofInt_of_safe ⟨by omega, by omega⟩
  have hfrac : BnJs.toNumber ((raw.toNat % 1000000 : ℕ) : ℤ) =
      some ((raw.toNat % 1000000 : ℕ) : ℤ) := by
    rw [BnJs.toNumber_eq]
    exact if_pos ⟨by omega, by omega⟩
  have hshown : (padStart (JsString.ofNat (raw.toNat % 1000000)) 6 (unit '0')).rdropWhile
      (· = unit '0') = (shown (raw.toNat % 1000000)).map digitUnit := by
    rw [padStart_ofNat, rdropWhile_zero ((digits_numeral _).pad 6)]
    rfl
  simp only [AdminApp.formatSilv, hraw, hneg, Bool.false_eq_true, if_false, hdiv, hmod, hwhole,
    hfrac, Int.toNat_natCast, Option.bind_eq_bind, Option.bind_some, hshown]
  by_cases h0 : raw.toNat % 1000000 = 0
  · have hnone : shown (raw.toNat % 1000000) = [] := by rw [h0]; decide
    rw [if_pos (Int.natCast_eq_zero.2 h0), if_pos hnone, List.append_nil]
    rfl
  · rw [if_neg (mt Int.natCast_eq_zero.1 h0)]
    by_cases hnone : shown (raw.toNat % 1000000) = []
    · rw [if_neg (by simpa using hnone), if_pos hnone, List.append_nil]
      rfl
    · rw [if_pos (by simpa using hnone), if_neg hnone, List.append_assoc]
      rfl

theorem decimal_shown {w f : ℕ} (h : f < 1000000) :
    decimal (numeral w) (shown f) = w + f / 10 ^ 6 := by
  have hlen : (pad 6 (numeral f)).length = 6 := length_pad (length_numeral_le (k := 5) h)
  rw [shown, decimal_rdropWhile, decimal, hlen, value_pad, value_numeral, value_numeral]

theorem plain_formatSilv [BnJs] (raw : UInt64) :
    ∃ text, AdminApp.formatSilv (BN.ofU64 raw) = some text ∧
      Plain (ungrouped text) (raw.toNat / 10 ^ 6) := by
  refine ⟨_, formatSilv_eq raw, ?_⟩
  have hf : Digits (shown (raw.toNat % 1000000)) := fun d hd =>
    ((digits_numeral _).pad 6) d ((List.rdropWhile_prefix _ _).subset hd)
  have hvalue : (raw.toNat / 10 ^ 6 : ℚ) =
      decimal (numeral (raw.toNat / 1000000)) (shown (raw.toNat % 1000000)) := by
    rw [decimal_shown (Nat.mod_lt _ (by norm_num))]
    have hsplit : (raw.toNat : ℚ) = 10 ^ 6 * (raw.toNat / 1000000 : ℕ) +
        (raw.toNat % 1000000 : ℕ) := by exact_mod_cast (Nat.div_add_mod _ 1000000).symm
    rw [div_eq_iff (by norm_num), hsplit]
    ring
  refine ⟨numeral (raw.toNat / 1000000), shown (raw.toNat % 1000000), digits_numeral _, hf, ?_,
    hvalue⟩
  rw [ungrouped, List.filter_append]
  split_ifs with hnone
  · exact .inl ⟨by rw [List.filter_nil, List.append_nil]; exact ungrouped_toLocaleString _, hnone⟩
  · refine .inr (congrArg₂ (· ++ ·) (ungrouped_toLocaleString _) ?_)
    rw [List.filter_cons_of_pos (by decide)]
    exact congrArg _ (ungrouped_digits hf)

end Formatter

/-- Every amount is shown as a plain decimal with commas, which is read back as the amount. Every
text that is a plain decimal is read down to the atomic unit below its value, and any other text as
zero. -/
theorem amounts_survive [BnJs] :
    (∀ raw : UInt64, ∃ text v, AdminApp.formatSilv (BN.ofU64 raw) = some text ∧
      Plain (ungrouped text) v ∧
      PublicApp.parseDecimalToAtomic6 (ungrouped text) = some (BN.ofU64 raw)) ∧
    ∀ input, (∀ v, Plain (trim input) v →
        PublicApp.parseDecimalToAtomic6 input = some ⌊v * 10 ^ 6⌋) ∧
      ((¬ ∃ v, Plain (trim input) v) → PublicApp.parseDecimalToAtomic6 input = some 0) := by
  refine ⟨?_, fun input => ⟨fun v => parse_of_plain, parse_of_not_plain⟩⟩
  intro raw
  obtain ⟨text, htext, hplain⟩ := plain_formatSilv raw
  refine ⟨text, _, htext, hplain, ?_⟩
  have hfloor : ⌊(raw.toNat / 10 ^ 6 : ℚ) * 10 ^ 6⌋ = (raw.toNat : ℤ) := by
    rw [div_mul_cancel₀ _ (by norm_num)]
    exact Int.floor_natCast raw.toNat
  rw [parse_of_plain (by rwa [hplain.trim_eq]), hfloor]
  rfl

example : AdminApp.formatSilv 1234567890000 = some (JsString.ofString "1,234,567.89") := by
  decide +kernel

example : PublicApp.parseDecimalToAtomic6 (JsString.ofString " .1234567\n") = some 123456 := by
  decide +kernel

example : PublicApp.parseDecimalToAtomic6 (JsString.ofString "2e3") = some 0 := by decide +kernel

end DominionSilver
