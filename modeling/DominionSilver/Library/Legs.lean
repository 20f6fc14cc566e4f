import DominionSilver.Library.Tokens

/-! Transfers by the owner of an account. Whether one goes through is read off the two accounts,
so a transfer can be made in two legs, to two accounts, exactly when it can be made in one. A
delegate draws on his allowance instead, also where he is the owner himself, and the second leg
then no longer goes the way of the first. -/

namespace Tokens

variable {κ : Type} [DecidableEq κ]

/-- No two accounts of a mint hold more than its supply, which is one word. -/
def Capped (l : Ledger κ) : Prop :=
  ∀ k k' a a', k ≠ k' → l.lookup k = some a → l.lookup k' = some a' → a.mint = a'.mint →
    a.amount.toNat + a'.amount.toNat < 2 ^ 64

theorem Capped.of_keys {l : Ledger κ}
    (h : ∀ k ∈ l.keys, ∀ k' ∈ l.keys, k ≠ k' → balance l k + balance l k' < 2 ^ 64) :
    Capped l := by
  intro k k' a a' hne ha ha' _
  have hk : k ∈ l.keys := Finmap.mem_keys.2 (Finmap.mem_of_lookup_eq_some ha)
  have hk' : k' ∈ l.keys := Finmap.mem_keys.2 (Finmap.mem_of_lookup_eq_some ha')
  have hsum := h k hk k' hk' hne
  rwa [balance_eq ha, balance_eq ha'] at hsum

/-- The two accounts allow `n` to move. -/
structure Movable (frozen : κ → Prop) (decimals : κ → UInt8 → Prop) (l : Ledger κ)
    (m s d : κ) (n : UInt64) (dec : UInt8) : Prop where
  decimals : decimals m dec
  source : ∃ x, l.lookup s = some x ∧ x.mint = m ∧ n.toNat ≤ x.amount.toNat
  dest : ∃ y, l.lookup d = some y ∧ y.mint = m ∧ y.amount.toNat + n.toNat < 2 ^ 64
  source_live : ¬ frozen s
  dest_live : ¬ frozen d

/-- An owner who is not his own delegate moves what the two accounts allow, and nothing else. -/
structure OwnerTransfers (tp : TokenProgram κ) (frozen : κ → Prop) (decimals : κ → UInt8 → Prop) :
    Prop where
  goes : ∀ {l m s d n dec x}, l.lookup s = some x → x.delegate ≠ some x.owner → s ≠ d →
    ((∃ l', tp.transferChecked l m s d x.owner n dec = some l') ↔
      Movable frozen decimals l m s d n dec)

section Legs

variable {tp : TokenProgram κ} {frozen : κ → Prop} {decimals : κ → UInt8 → Prop}
  {l l₁ : Ledger κ} {m s d e : κ} {n n₁ n₂ : UInt64} {x y : TokenAccount κ}

/-- What a leg leaves of an account, by what it does to the balance. -/
theorem Moved.lookup {k : ℕ} (h : Moved l l₁ s d k) {j : κ} {a : TokenAccount κ}
    (ha : l.lookup j = some a) :
    ∃ a', l₁.lookup j = some a' ∧ a'.mint = a.mint ∧ a'.owner = a.owner ∧
      (a'.delegate = a.delegate ∨ a'.delegate = none) ∧
      a'.amount.toNat + (if j = s then k else 0) = a.amount.toNat + (if j = d then k else 0) := by
  obtain ⟨a', ha', hm, ho, hd⟩ := h.holders.kept j a ha
  have hb := h.balance j
  rw [balance_eq ha, balance_eq ha'] at hb
  exact ⟨a', ha', hm, ho, hd, hb⟩

/-- One transfer goes through exactly when its two legs do and the second destination is open. -/
theorem OwnerTransfers.legs_iff (h : OwnerTransfers tp frozen decimals) (dec : UInt8)
    (hcap : Capped l) (hx : l.lookup s = some x) (hself : x.delegate ≠ some x.owner)
    (hy : l.lookup e = some y) (hym : y.mint = m) (hsd : s ≠ d) (hse : s ≠ e) (hde : d ≠ e)
    (hn : n.toNat = n₁.toNat + n₂.toNat) :
    (∃ l₁ l₂, tp.transferChecked l m s d x.owner n₁ dec = some l₁ ∧
        tp.transferChecked l₁ m s e x.owner n₂ dec = some l₂) ↔
      (∃ l', tp.transferChecked l m s d x.owner n dec = some l') ∧ ¬ frozen e := by
  have hafter : ∀ {l₁}, tp.transferChecked l m s d x.owner n₁ dec = some l₁ →
      ((∃ l₂, tp.transferChecked l₁ m s e x.owner n₂ dec = some l₂) ↔
        Movable frozen decimals l₁ m s e n₂ dec) := by
    intro l₁ h₁
    obtain ⟨x', hx', -, ho, hd, -⟩ := (tp.transfer_moved h₁).1.lookup hx
    rw [← ho]
    refine h.goes hx' ?_ hse
    rcases hd with hd | hd
    · rwa [hd, ho]
    · rw [hd]; exact Option.some_ne_none _ |>.symm
  constructor
  · rintro ⟨l₁, l₂, h₁, h₂⟩
    have first := (h.goes hx hself hsd).1 ⟨l₁, h₁⟩
    have second := (hafter h₁).1 ⟨l₂, h₂⟩
    obtain ⟨x₀, hx₀, hxm, -⟩ := first.source
    obtain rfl := Option.some.inj (hx.symm.trans hx₀)
    obtain ⟨z, hz, hzm, -⟩ := first.dest
    obtain ⟨x', hx', -, hle⟩ := second.source
    obtain ⟨x'', hx'', -, -, -, hamount⟩ := (tp.transfer_moved h₁).1.lookup hx
    obtain rfl := Option.some.inj (hx'.symm.trans hx'')
    rw [if_pos rfl, if_neg hsd] at hamount
    have hroom := hcap s d x z hsd hx hz (hxm.trans hzm.symm)
    refine ⟨(h.goes hx hself hsd).2 ⟨first.decimals, ⟨x, hx, hxm, by omega⟩, ⟨z, hz, hzm, by omega⟩,
      first.source_live, first.dest_live⟩, second.dest_live⟩
  · rintro ⟨⟨l', hl⟩, hopen⟩
    have whole := (h.goes hx hself hsd).1 ⟨l', hl⟩
    obtain ⟨x₀, hx₀, hxm, hle⟩ := whole.source
    obtain rfl := Option.some.inj (hx.symm.trans hx₀)
    obtain ⟨z, hz, hzm, hroom⟩ := whole.dest
    obtain ⟨l₁, h₁⟩ := (h.goes (n := n₁) hx hself hsd).2 ⟨whole.decimals, ⟨x, hx, hxm, by omega⟩,
      ⟨z, hz, hzm, by omega⟩, whole.source_live, whole.dest_live⟩
    obtain ⟨x', hx', hxm', -, -, hxa⟩ := (tp.transfer_moved h₁).1.lookup hx
    obtain ⟨y', hy', hym', -, -, hya⟩ := (tp.transfer_moved h₁).1.lookup hy
    rw [if_pos rfl, if_neg hsd] at hxa
    rw [if_neg hse.symm, if_neg hde.symm] at hya
    have hcapped := hcap s e x y hse hx hy (hxm.trans hym.symm)
    obtain ⟨l₂, h₂⟩ := (hafter h₁).2 ⟨whole.decimals, ⟨x', hx', hxm'.trans hxm, by omega⟩,
      ⟨y', hy', hym'.trans hym, by omega⟩, whole.source_live, hopen⟩
    exact ⟨l₁, l₂, h₁, h₂⟩

end Legs

section Program

/-- The account at `s` without its delegate. -/
def clearDelegate (l : Ledger κ) (s : κ) : Ledger κ :=
  match l.lookup s with
  | some a => l.insert s { a with delegate := none }
  | none => l

theorem balance_clearDelegate (l : Ledger κ) (s k : κ) :
    balance (clearDelegate l s) k = balance l k := by
  unfold clearDelegate
  cases hs : l.lookup s with
  | none => rfl
  | some a =>
    rw [balance_insert]
    split_ifs with hk
    · rw [hk, balance_eq hs]
    · rfl

theorem sameHolders_clearDelegate (l : Ledger κ) (s : κ) : SameHolders l (clearDelegate l s) := by
  unfold clearDelegate
  cases hs : l.lookup s with
  | none => exact SameHolders.refl l
  | some a =>
    constructor
    · intro k b hb
      by_cases hk : k = s
      · subst hk
        obtain rfl := Option.some.inj (hs.symm.trans hb)
        exact ⟨_, Finmap.lookup_insert _, rfl, rfl, .inr rfl⟩
      · exact ⟨b, by rw [Finmap.lookup_insert_of_ne _ hk, hb], rfl, rfl, .inl rfl⟩
    · intro k hk
      have hks : k ≠ s := fun e => by subst e; rw [hs] at hk; cases hk
      rw [Finmap.lookup_insert_of_ne _ hks, hk]

theorem Moved.clearDelegate {l l' : Ledger κ} {s d j : κ} {k : ℕ} (h : Moved l l' s d k) :
    Moved l (clearDelegate l' j) s d k :=
  ⟨h.holders.trans (sameHolders_clearDelegate l' j), h.enough,
    fun i => by rw [balance_clearDelegate]; exact h.balance i⟩

/-- Frozen accounts send and receive nothing, and a delegate may move `allowance` units, with which
his delegation ends. -/
def guardedTransfer (tp : TokenProgram κ) (frozen : κ → Bool) (allowance : UInt64) (l : Ledger κ)
    (m s d a : κ) (n : UInt64) (dec : UInt8) : Option (Ledger κ) :=
  if frozen s = true ∨ frozen d = true then none
  else if (l.lookup s).bind (·.delegate) = some a then
    if n = allowance then (tp.transferChecked l m s d a n dec).map (clearDelegate · s) else none
  else tp.transferChecked l m s d a n dec

/-- A token program in a state where some accounts are frozen and a delegate has an allowance. -/
def guarded (tp : TokenProgram κ) (frozen : κ → Bool) (allowance : UInt64) : TokenProgram κ :=
  { tp with
    transferChecked := guardedTransfer tp frozen allowance
    transfer_moved := by
      intro l l' m s d a n dec h
      unfold guardedTransfer at h
      split_ifs at h
      · obtain ⟨l₁, h₁, rfl⟩ := Option.map_eq_some_iff.1 h
        exact ⟨(tp.transfer_moved h₁).1.clearDelegate, (tp.transfer_moved h₁).2⟩
      · exact tp.transfer_moved h }

theorem reference_ownerTransfers :
    OwnerTransfers (@reference κ _) (fun _ => False) fun _ _ => True := by
  constructor
  intro l m s d n dec x hx _ hsd
  rw [reference_transferChecked hx hsd]
  constructor
  · rintro ⟨hm, hle, hdest⟩
    exact ⟨trivial, ⟨x, hx, hm, hle⟩, hdest, not_false, not_false⟩
  · rintro ⟨-, ⟨x', hx', hm, hle⟩, hdest, -, -⟩
    obtain rfl := Option.some.inj (hx.symm.trans hx')
    exact ⟨hm, hle, hdest⟩

theorem guarded_ownerTransfers {tp : TokenProgram κ} {decimals : κ → UInt8 → Prop}
    (h : OwnerTransfers tp (fun _ => False) decimals) (frozen : κ → Bool) (allowance : UInt64) :
    OwnerTransfers (guarded tp frozen allowance) (frozen · = true) decimals := by
  constructor
  intro l m s d n dec x hx hself hsd
  change (∃ l', guardedTransfer tp frozen allowance l m s d x.owner n dec = some l') ↔ _
  have hdelegate : ¬ (l.lookup s).bind (·.delegate) = some x.owner := by
    rwa [hx]
  unfold guardedTransfer
  rw [if_neg hdelegate]
  split_ifs with hfrozen
  · refine ⟨fun hl => absurd hl (by simp), fun hmov => ?_⟩
    exact absurd hfrozen (not_or.2 ⟨hmov.source_live, hmov.dest_live⟩)
  · rw [h.goes hx hself hsd]
    obtain ⟨hs, hd⟩ := not_or.1 hfrozen
    exact ⟨fun hmov => ⟨hmov.decimals, hmov.source, hmov.dest, hs, hd⟩,
      fun hmov => ⟨hmov.decimals, hmov.source, hmov.dest, not_false, not_false⟩⟩

end Program

end Tokens
