import DominionSilver.Library.Sizes

/-! Records kept in buffers of a fixed size. A buffer never grows: a record is
written over its first bytes, behind a discriminator, and the bytes after it are
whatever was there before. A record that fits is read back from any buffer of the
size. Bytes at the end of a record that are reserved, and zero, can later be given
to new fields, which are then read as blank from every buffer written before. -/

namespace Bytes

open Checked

/-- Exactly `n` bytes. -/
structure Block (n : ℕ) where
  bytes : List UInt8
  size : bytes.length = n
deriving DecidableEq

namespace Block

theorem ext {n : ℕ} {a b : Block n} (h : a.bytes = b.bytes) : a = b := by
  obtain ⟨_, _⟩ := a
  obtain ⟨_, _⟩ := b
  obtain rfl := h
  rfl

def zero (n : ℕ) : Block n := ⟨List.replicate n 0, List.length_replicate⟩

end Block

namespace Codec

variable {α β : Type} {n : ℕ}

instance instBlock (n : ℕ) : Codec (Block n) where
  ser b := some b.bytes
  de bs := if h : n ≤ bs.length then
      some (⟨bs.take n, List.length_take_of_le h⟩, bs.drop n) else none
  de_ser b bs rest h := by
    obtain rfl := Option.some.inj h
    have hroom : n ≤ (b.bytes ++ rest).length := by
      rw [List.length_append, b.size]
      exact Nat.le_add_right n _
    rw [dif_pos hroom]
    have htake : (b.bytes ++ rest).take n = b.bytes := List.take_left' b.size
    exact congrArg some (Prod.ext (Block.ext htake) (List.drop_left' b.size))

instance (n : ℕ) : MaxSize (Block n) := ⟨n, fun b => ⟨b.bytes, rfl, b.size.le⟩⟩

/-- A `u128`. A number out of its range has no bytes. -/
instance instU128 : Codec ℕ where
  ser a := if a < 2 ^ 128 then some (toLE 16 a) else none
  de bs := if 16 ≤ bs.length then some (ofLE (bs.take 16), bs.drop 16) else none
  de_ser a bs rest h := by
    split_ifs at h with ha
    obtain rfl := Option.some.inj h
    have hlen := length_toLE 16 a
    rw [List.take_left' hlen, List.drop_left' hlen, ofLE_toLE 16 a (by norm_num; omega),
      if_pos (by rw [List.length_append, hlen]; omega)]

theorem fits_u128 {a : ℕ} (h : a < 2 ^ 128) : Fits 16 a :=
  ⟨toLE 16 a, if_pos h, (length_toLE 16 a).le⟩

theorem de_prod [Codec α] [Codec β] {bs rest : List UInt8} {a : α} {b : β} :
    de bs = some ((a, b), rest) ↔ ∃ mid, de bs = some (a, mid) ∧ de mid = some (b, rest) := by
  constructor
  · intro h
    obtain ⟨⟨a', mid⟩, ha, h⟩ := Option.bind_eq_some_iff.1 h
    obtain ⟨⟨b', rest'⟩, hb, h⟩ := Option.map_eq_some_iff.1 h
    cases h
    exact ⟨mid, ha, hb⟩
  · rintro ⟨mid, ha, hb⟩
    exact Option.bind_eq_some_iff.2 ⟨_, ha, Option.map_eq_some_iff.2 ⟨_, hb, rfl⟩⟩

theorem de_zero {bs rest : List UInt8} (h : de bs = some (Block.zero n, rest)) :
    bs = List.replicate n 0 ++ rest := by
  simp only [de] at h
  split_ifs at h with hroom
  obtain ⟨hblock, rfl⟩ := Prod.mk.inj (Option.some.inj h)
  have hzeros : bs.take n = List.replicate n 0 := congrArg Block.bytes hblock
  rw [← hzeros, List.take_append_drop]

/-- A type with a value that is read from zeros, however many of them there are. -/
class Blank (α : Type) [Codec α] [MaxSize α] where
  blank : α
  width : ℕ
  width_le : width ≤ MaxSize.maxSize α
  de_zeros : ∀ n rest, width ≤ n →
    de (List.replicate n 0 ++ rest) = some (blank, List.replicate (n - width) 0 ++ rest)

theorem take_zeros {m n : ℕ} (h : m ≤ n) (rest : List UInt8) :
    (List.replicate n 0 ++ rest).take m = List.replicate m 0 := by
  rw [List.take_append_of_le_length (by rwa [List.length_replicate]), List.take_replicate,
    min_eq_left h]

theorem drop_zeros {m n : ℕ} (h : m ≤ n) (rest : List UInt8) :
    (List.replicate n 0 ++ rest).drop m = List.replicate (n - m) 0 ++ rest := by
  rw [List.drop_append_of_le_length (by rwa [List.length_replicate]), List.drop_replicate]

theorem ofLE_zeros (n : ℕ) : ofLE (List.replicate n 0) = 0 := by
  induction n with
  | zero => rfl
  | succ n ih => rw [List.replicate_succ, ofLE, ih]; rfl

theorem zeros_succ {n : ℕ} (h : 1 ≤ n) (rest : List UInt8) :
    List.replicate n 0 ++ rest = 0 :: (List.replicate (n - 1) 0 ++ rest) := by
  obtain ⟨m, rfl⟩ := Nat.exists_eq_add_of_le' h
  rfl

instance [Word α] : Blank α where
  blank := Word.ofNat 0
  width := Word.width α
  width_le := le_rfl
  de_zeros n rest h := by
    have hroom : Word.width α ≤ (List.replicate n (0 : UInt8) ++ rest).length := by
      rw [List.length_append, List.length_replicate]
      exact h.trans (Nat.le_add_right n _)
    simp only [de, fromLEBytes, if_pos hroom, take_zeros h, ofLE_zeros, Option.map_some,
      drop_zeros h]

instance : Blank Bool where
  blank := false
  width := 1
  width_le := le_rfl
  de_zeros n rest h := by rw [zeros_succ h]; rfl

instance [Codec α] [MaxSize α] : Blank (Option α) where
  blank := none
  width := 1
  width_le := Nat.le_add_right 1 _
  de_zeros n rest h := by rw [zeros_succ h]; rfl

instance (k : ℕ) : Blank (Block k) where
  blank := Block.zero k
  width := k
  width_le := le_rfl
  de_zeros n rest h := by
    have hroom : k ≤ (List.replicate n (0 : UInt8) ++ rest).length := by
      rw [List.length_append, List.length_replicate]
      exact h.trans (Nat.le_add_right n _)
    simp only [de]
    rw [dif_pos hroom]
    exact congrArg some (Prod.ext (Block.ext (take_zeros h rest)) (drop_zeros h rest))

instance [Codec α] [Codec β] [MaxSize α] [MaxSize β] [Blank α] [Blank β] : Blank (α × β) where
  blank := (Blank.blank, Blank.blank)
  width := Blank.width α + Blank.width β
  width_le := Nat.add_le_add Blank.width_le Blank.width_le
  de_zeros n rest h := by
    have hα := Blank.de_zeros (α := α) n rest (by omega)
    have hβ := Blank.de_zeros (α := β) (n - Blank.width α) rest (by omega)
    have hleft : n - Blank.width α - Blank.width β = n - (Blank.width α + Blank.width β) := by
      omega
    simp only [de, hα, hβ, Option.bind_some, Option.map_some, hleft]

end Codec

/-- How an account's data begins, and its size. -/
structure Layout (α : Type) where
  discriminator : List UInt8
  size : ℕ
  disc_le : discriminator.length ≤ size

namespace Layout

open Codec

variable {α : Type} [Codec α] {l : Layout α} {a : α} {data data' : List UInt8}

/-- The data of an account just created. -/
def fresh (l : Layout α) : List UInt8 := List.replicate l.size 0

/-- The data after `a` is written back; `none` where it does not fit. -/
def write (l : Layout α) (a : α) (data : List UInt8) : Option (List UInt8) := do
  let bytes ← Codec.ser a
  overwrite (l.discriminator ++ bytes) data

/-- The record in the data; the bytes after it do not matter. -/
def read (l : Layout α) (data : List UInt8) : Option α :=
  if data.take l.discriminator.length = l.discriminator then
    (Codec.de (data.drop l.discriminator.length)).map Prod.fst
  else none

/-- `a` fits behind the discriminator. -/
def Takes (l : Layout α) (a : α) : Prop := Fits (l.size - l.discriminator.length) a

theorem write_eq_some : l.write a data = some data' ↔ ∃ bytes, Codec.ser a = some bytes ∧
    overwrite (l.discriminator ++ bytes) data = some data' := by
  simp only [write, Option.bind_eq_bind, Option.bind_eq_some_iff]

theorem exists_write (h : l.Takes a) (hsize : data.length = l.size) :
    ∃ data', l.write a data = some data' := by
  obtain ⟨bytes, hser, hlen⟩ := h
  have hroom : (l.discriminator ++ bytes).length ≤ data.length := by
    have := l.disc_le
    rw [List.length_append]
    omega
  exact ⟨_, write_eq_some.2 ⟨bytes, hser, if_pos hroom⟩⟩

/-- The data is that of `a`: the discriminator, its bytes and any others. -/
def Begins (l : Layout α) (a : α) (data : List UInt8) : Prop :=
  ∃ bytes rest, Codec.ser a = some bytes ∧ data = l.discriminator ++ bytes ++ rest

theorem Begins.read (h : l.Begins a data) : l.read data = some a := by
  obtain ⟨bytes, rest, hser, rfl⟩ := h
  rw [Layout.read, List.append_assoc, List.take_left' rfl, if_pos rfl, List.drop_left' rfl,
    de_ser a bytes rest hser, Option.map_some]

/-- The buffer begins with what was written, and keeps its size. -/
theorem begins_write (h : l.write a data = some data') :
    l.Begins a data' ∧ data'.length = data.length := by
  obtain ⟨bytes, hser, hover⟩ := write_eq_some.1 h
  have hroom : (l.discriminator ++ bytes).length ≤ data.length := by
    unfold overwrite at hover
    split_ifs at hover with hroom
    exact hroom
  obtain ⟨rest, hdata, hlen⟩ := overwrite_eq hroom
  obtain rfl := Option.some.inj (hdata.symm.trans hover)
  exact ⟨⟨bytes, rest, hser, rfl⟩, hlen⟩

/-- The data, if there is any, is that of the record, if there is one. -/
inductive Stored (l : Layout α) : Option (List UInt8) → Option α → Prop
  | absent : Stored l none none
  | present {data : List UInt8} {a : α} (size : data.length = l.size) (begins : l.Begins a data) :
      Stored l (some data) (some a)

/-- The data after the record is written back. A new account starts out as zeros, a closed one is
gone. -/
def rewrite (l : Layout α) (record : Option α) (old : Option (List UInt8)) :
    Option (Option (List UInt8)) :=
  match record with
  | none => some none
  | some a => (l.write a (old.getD l.fresh)).map some

theorem Stored.length {old : Option (List UInt8)} {x : Option α} (h : l.Stored old x) :
    (old.getD l.fresh).length = l.size := by
  cases h with
  | absent => exact List.length_replicate
  | present size => exact size

theorem Stored.rewrite {old new : Option (List UInt8)} {x y : Option α} (h : l.Stored old x)
    (hwrite : l.rewrite y old = some new) : l.Stored new y := by
  cases y with
  | none =>
    obtain rfl := Option.some.inj hwrite
    exact .absent
  | some a =>
    obtain ⟨data, hdata, rfl⟩ := Option.map_eq_some_iff.1 hwrite
    obtain ⟨hbegins, hlen⟩ := begins_write hdata
    exact .present (hlen.trans h.length) hbegins

theorem Stored.exists_rewrite {old : Option (List UInt8)} {x y : Option α} (h : l.Stored old x)
    (hfits : ∀ a, y = some a → l.Takes a) : ∃ new, l.rewrite y old = some new := by
  cases y with
  | none => exact ⟨none, rfl⟩
  | some a =>
    obtain ⟨data, hdata⟩ := exists_write (hfits a rfl) h.length
    exact ⟨some data, Option.map_eq_some_iff.2 ⟨data, hdata, rfl⟩⟩

theorem Stored.unique {d : Option (List UInt8)} {x y : Option α} (hx : l.Stored d x)
    (hy : l.Stored d y) : x = y := by
  cases hx with
  | absent => cases hy; rfl
  | present _ hbegins =>
    cases hy with
    | present _ hbegins' => exact hbegins.read.symm.trans hbegins'.read

section Carve

variable {k m : ℕ} {γ : Type} [Codec γ] [MaxSize γ] {l : Layout (α × Block k)}

/-- The layout of a record that gives its reserved bytes to new fields, but for the last `m`. -/
def carve (l : Layout (α × Block k)) (γ : Type) (m : ℕ) : Layout (α × γ × Block m) :=
  ⟨l.discriminator, l.size, l.disc_le⟩

/-- The new fields are read as blank where the reserved bytes were zero. -/
theorem read_carve [Blank γ] (hroom : MaxSize.maxSize γ + m ≤ k)
    (h : l.read data = some (a, Block.zero k)) :
    (l.carve γ m).read data = some (a, Blank.blank, Block.zero m) := by
  unfold read at h ⊢
  split_ifs at h with hdisc
  obtain ⟨⟨_, rest⟩, hde, rfl⟩ := Option.map_eq_some_iff.1 h
  obtain ⟨mid, ha, hb⟩ := de_prod.1 hde
  have hwidth : Blank.width (γ × Block m) ≤ k := Blank.width_le.trans hroom
  have hnew := Blank.de_zeros (α := γ × Block m) k rest hwidth
  rw [← de_zero hb] at hnew
  have hall := de_prod.2 ⟨mid, ha, hnew⟩
  exact (if_pos hdisc).trans (congrArg (Option.map Prod.fst) hall)

theorem takes_carve (hroom : MaxSize.maxSize γ + m ≤ k) (h : l.Takes (a, Block.zero k)) (c : γ)
    (b : Block m) : (l.carve γ m).Takes (a, c, b) := by
  obtain ⟨bytes, hser, hlen⟩ := h
  obtain ⟨front, hfront, hback⟩ := Option.bind_eq_some_iff.1 hser
  obtain ⟨_, hzero, rfl⟩ := Option.map_eq_some_iff.1 hback
  obtain rfl := Option.some.inj hzero
  have hk : (Block.zero k).bytes.length = k := (Block.zero k).size
  have hnew : Fits (MaxSize.maxSize γ + m) (c, b) := MaxSize.fits (c, b)
  have hall := Fits.prod ⟨front, hfront, le_rfl⟩ hnew
  refine hall.mono ?_
  rw [List.length_append, hk] at hlen
  exact le_trans (Nat.add_le_add_left hroom _) hlen

end Carve

end Layout

end Bytes
