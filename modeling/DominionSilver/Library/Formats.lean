import DominionSilver.Library.Bytes

/-! Formats that delimit themselves: two inputs that agree and start with encodings start with the
same one, so nothing can be cut off an encoding and nothing added. Words do, and what is put
together from self-delimiting parts does. The parts of a record may come tagged and in any order;
where no tag comes twice the order of writing them does not matter. -/

namespace Formats

open Bytes

section Delimiting

variable {α β : Type}

def SelfDelimiting (enc : α → List β) : Prop :=
  ∀ ⦃a b : α⦄ ⦃s t : List β⦄, enc a ++ s = enc b ++ t → a = b ∧ s = t

theorem SelfDelimiting.of_length {enc : α → List β} (hi : Function.Injective enc)
    (hl : ∀ a b, (enc a).length = (enc b).length) : SelfDelimiting enc := by
  intro a b s t h
  obtain ⟨he, hs⟩ := List.append_inj h (hl a b)
  exact ⟨hi he, hs⟩

theorem selfDelimiting_word [Word α] : SelfDelimiting (toLEBytes : α → List UInt8) :=
  .of_length toLEBytes_injective fun a b => by rw [length_toLEBytes, length_toLEBytes]

theorem SelfDelimiting.flatMap {enc : α → List β} (h : SelfDelimiting enc) {xs ys : List α}
    {s t : List β} (hl : xs.length = ys.length)
    (he : xs.flatMap enc ++ s = ys.flatMap enc ++ t) : xs = ys ∧ s = t := by
  induction xs generalizing ys with
  | nil =>
    obtain rfl := List.length_eq_zero_iff.1 hl.symm
    exact ⟨rfl, he⟩
  | cons x xs ih =>
    cases ys with
    | nil => simp at hl
    | cons y ys =>
      rw [List.flatMap_cons, List.flatMap_cons, List.append_assoc, List.append_assoc] at he
      obtain ⟨rfl, htail⟩ := h he
      obtain ⟨rfl, hs⟩ := ih (Nat.succ.inj hl) htail
      exact ⟨rfl, hs⟩

theorem SelfDelimiting.eq_nil {enc : α → List β} (h : SelfDelimiting enc) {a b : α} {s : List β}
    (he : enc a ++ s = enc b) : s = [] :=
  (h (he.trans (List.append_nil _).symm)).2

end Delimiting

section Tagged

variable {σ π κ γ : Type} {write : σ → π → σ} {key : π → κ} {get : σ → γ} {val : π → γ} {k : κ}

theorem foldl_other (other : ∀ s p, key p ≠ k → get (write s p) = get s) {ps : List π} {s : σ}
    (hk : k ∉ ps.map key) : get (ps.foldl write s) = get s := by
  induction ps generalizing s with
  | nil => rfl
  | cons p ps ih =>
    rw [List.map_cons, List.mem_cons, not_or] at hk
    rw [List.foldl_cons, ih hk.2, other s p (Ne.symm hk.1)]

/-- What only the part with tag `k` writes, once all parts are written. -/
theorem foldl_own (other : ∀ s p, key p ≠ k → get (write s p) = get s)
    (own : ∀ s p, key p = k → get (write s p) = val p) {ps : List π} (hd : (ps.map key).Nodup)
    {s : σ} {p : π} (hp : p ∈ ps) (hk : key p = k) : get (ps.foldl write s) = val p := by
  induction ps generalizing s with
  | nil => cases hp
  | cons q ps ih =>
    rw [List.map_cons, List.nodup_cons] at hd
    rw [List.foldl_cons]
    rcases List.mem_cons.1 hp with rfl | hp
    · rw [foldl_other other (hk ▸ hd.1), own s p hk]
    · exact ih hd.2 hp

theorem foldl_eq_some {δ : Type} {get : σ → Option δ} {val : π → Option δ}
    (other : ∀ s p, key p ≠ k → get (write s p) = get s)
    (own : ∀ s p, key p = k → get (write s p) = val p) {ps : List π} (hd : (ps.map key).Nodup)
    {s : σ} (hs : get s = none) {v : δ} :
    get (ps.foldl write s) = some v ↔ ∃ p ∈ ps, key p = k ∧ val p = some v := by
  constructor
  · intro h
    by_cases hk : k ∈ ps.map key
    · obtain ⟨p, hp, hkey⟩ := List.mem_map.1 hk
      exact ⟨p, hp, hkey, (foldl_own other own hd hp hkey).symm.trans h⟩
    · rw [foldl_other other hk, hs] at h
      cases h
  · rintro ⟨p, hp, hkey, hv⟩
    exact (foldl_own other own hd hp hkey).trans hv

end Tagged

end Formats
