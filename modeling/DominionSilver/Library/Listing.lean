import Mathlib.Tactic

/-! Listings: rows that are read one by one, all of them or none, and then sorted. -/

namespace Listing

variable {α β : Type} {f : α → Option β} {g : α → β} {p : α → Prop} {l : List α}

theorem mapM_eq_some (h : ∀ a b, f a = some b ↔ p a ∧ b = g a) {bs : List β} :
    l.mapM f = some bs ↔ (∀ a ∈ l, p a) ∧ bs = l.map g := by
  induction l generalizing bs with
  | nil => simp [eq_comm]
  | cons a l ih =>
    simp only [List.mapM_cons, Option.bind_eq_bind, Option.bind_eq_some_iff, h, ih,
      Option.pure_def, Option.some.injEq, List.forall_mem_cons, List.map_cons]
    constructor
    · rintro ⟨_, ⟨ha, rfl⟩, _, ⟨hl, rfl⟩, rfl⟩
      exact ⟨⟨ha, hl⟩, rfl⟩
    · rintro ⟨⟨ha, hl⟩, rfl⟩
      exact ⟨_, ⟨ha, rfl⟩, _, ⟨hl, rfl⟩, rfl⟩

theorem mapM_eq_none (h : ∀ a b, f a = some b ↔ p a ∧ b = g a) :
    l.mapM f = none ↔ ∃ a ∈ l, ¬ p a := by
  have hsome : l.mapM f = some (l.map g) ↔ ∀ a ∈ l, p a := by
    rw [mapM_eq_some h, and_iff_left rfl]
  constructor
  · intro hnone
    by_contra hall
    rw [hsome.2 fun a ha => by_contra fun hp => hall ⟨a, ha, hp⟩] at hnone
    cases hnone
  · rintro ⟨a, ha, hp⟩
    cases hr : l.mapM f with
    | none => rfl
    | some bs => exact absurd (((mapM_eq_some h).1 hr).1 a ha) hp

variable {le : β → β → Bool}

theorem sorted_eq_none (h : ∀ a b, f a = some b ↔ p a ∧ b = g a) :
    ((l.mapM f).bind fun bs => some (bs.mergeSort le)) = none ↔ ∃ a ∈ l, ¬ p a := by
  rw [← mapM_eq_none h]
  cases l.mapM f with
  | none => simp
  | some bs => simp

/-- Else it is in order, and has each row as often as it was read. -/
theorem sorted_eq_some (h : ∀ a b, f a = some b ↔ p a ∧ b = g a)
    (trans : ∀ a b c, le a b = true → le b c = true → le a c = true)
    (total : ∀ a b, (le a b || le b a) = true) {bs : List β}
    (hbs : ((l.mapM f).bind fun bs => some (bs.mergeSort le)) = some bs) :
    bs.Pairwise (fun a b => le a b = true) ∧ bs.Perm (l.map g) := by
  obtain ⟨bs', hread, hsort⟩ := Option.bind_eq_some_iff.1 hbs
  obtain ⟨-, rfl⟩ := (mapM_eq_some h).1 hread
  obtain rfl := Option.some.inj hsort
  exact ⟨List.pairwise_mergeSort trans total _, List.mergeSort_perm _ _⟩

section Keys

variable {κ : Type} {rows : κ → Option α} {key : α → κ} {key' : β → κ} {bs : List β}

/-- The rows that `l` lists are those under some key. -/
def Lists (l : List α) (rows : κ → Option α) : Prop := ∀ a, a ∈ l ↔ ∃ k, rows k = some a

theorem mem_iff (hl : Lists l rows) (hkey : ∀ k a, rows k = some a → key a = k)
    (hbs : bs.Perm (l.map g)) {b : β} : b ∈ bs ↔ ∃ a, rows (key a) = some a ∧ g a = b := by
  rw [hbs.mem_iff, List.mem_map]
  constructor
  · rintro ⟨a, ha, rfl⟩
    obtain ⟨k, hk⟩ := (hl a).1 ha
    exact ⟨a, by rw [hkey k a hk]; exact hk, rfl⟩
  · rintro ⟨a, ha, rfl⟩
    exact ⟨a, (hl a).2 ⟨_, ha⟩, rfl⟩

theorem key_iff (hl : Lists l rows) (hkey : ∀ k a, rows k = some a → key a = k)
    (hbs : bs.Perm (l.map g)) (hg : ∀ a, key' (g a) = key a) (k : κ) :
    (∃ b ∈ bs, key' b = k) ↔ (rows k).isSome := by
  rw [Option.isSome_iff_exists]
  constructor
  · rintro ⟨b, hb, rfl⟩
    obtain ⟨a, ha, rfl⟩ := (mem_iff hl hkey hbs).1 hb
    exact ⟨a, by rw [hg]; exact ha⟩
  · rintro ⟨a, ha⟩
    have hk := hkey k a ha
    exact ⟨g a, (mem_iff hl hkey hbs).2 ⟨a, by rw [hk]; exact ha, rfl⟩, (hg a).trans hk⟩

end Keys

end Listing
