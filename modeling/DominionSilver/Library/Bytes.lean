import DominionSilver.Library.Checked

/-! Little-endian words and a length-prefixed binary format in the manner of
Borsh. A decoder reads back what its encoder wrote and leaves the bytes after
it, so formats compose and a whole slice decodes to the value encoded. -/

namespace Bytes

/-- The `w` little-endian bytes of `n`. -/
def toLE : ℕ → ℕ → List UInt8
  | 0, _ => []
  | w + 1, n => UInt8.ofNat (n % 256) :: toLE w (n / 256)

def ofLE : List UInt8 → ℕ
  | [] => 0
  | b :: bs => b.toNat + 256 * ofLE bs

@[simp] theorem length_toLE (w n : ℕ) : (toLE w n).length = w := by
  induction w generalizing n with
  | zero => rfl
  | succ w ih => simp only [toLE, List.length_cons, ih]

theorem ofLE_toLE (w n : ℕ) (h : n < 256 ^ w) : ofLE (toLE w n) = n := by
  induction w generalizing n with
  | zero => simp only [pow_zero, Nat.lt_one_iff] at h; simp only [toLE, ofLE, h]
  | succ w ih =>
    have hb : (UInt8.ofNat (n % 256)).toNat = n % 256 :=
      UInt8.toNat_ofNat_of_lt' (Nat.mod_lt _ (by norm_num))
    rw [toLE, ofLE, ih _ (Nat.div_lt_of_lt_mul (by rw [pow_succ] at h; omega)), hb]
    omega

theorem ofLE_lt (bs : List UInt8) : ofLE bs < 256 ^ bs.length := by
  induction bs with
  | nil => norm_num [ofLE]
  | cons b bs ih =>
    have hb := b.toNat_lt
    rw [ofLE, List.length_cons, pow_succ]
    omega

theorem toLE_ofLE (bs : List UInt8) : toLE bs.length (ofLE bs) = bs := by
  induction bs with
  | nil => rfl
  | cons b bs ih =>
    have hb := b.toNat_lt
    have hmod : (b.toNat + 256 * ofLE bs) % 256 = b.toNat := by omega
    have hdiv : (b.toNat + 256 * ofLE bs) / 256 = ofLE bs := by omega
    rw [ofLE, List.length_cons, toLE, hmod, hdiv, ih, UInt8.ofNat_toNat]

/-- The value of some bytes within a slice, read from the last one to the first. -/
theorem foldr_ofLE (pre bs post : List UInt8) :
    (List.range bs.length).foldr
      (fun i v => (v <<< 8) ||| ((pre ++ bs ++ post).getD (pre.length + i) 0).toNat) 0 = ofLE bs := by
  induction bs generalizing pre with
  | nil => rfl
  | cons b bs ih =>
    have htail := ih (pre ++ [b])
    simp only [List.append_assoc, List.length_append, List.length_singleton, List.singleton_append,
      Nat.add_assoc, Nat.add_comm 1] at htail
    have hhead : (pre ++ (b :: bs) ++ post).getD (pre.length + 0) 0 = b := by simp
    rw [List.length_cons, List.range_succ_eq_map, List.foldr_cons, hhead, List.foldr_map]
    simp only [List.append_assoc, List.cons_append, Nat.succ_eq_add_one] at htail ⊢
    rw [htail, ofLE, ← Nat.shiftLeft_add_eq_or_of_lt (by simpa using b.toNat_lt)]
    rw [Nat.shiftLeft_eq]
    omega

/-- The `w` bytes of an integer in two's complement. -/
def toSignedLE (w : ℕ) (z : ℤ) : List UInt8 := toLE w (z % 256 ^ w).toNat

@[simp] theorem length_toSignedLE (w : ℕ) (z : ℤ) : (toSignedLE w z).length = w := length_toLE _ _

theorem ofLE_toSignedLE (w : ℕ) (z : ℤ) : (ofLE (toSignedLE w z) : ℤ) = z % 256 ^ w := by
  have hpos : (0 : ℤ) < 256 ^ w := by positivity
  have hlt := Int.emod_lt_of_pos z hpos
  have hnonneg := Int.emod_nonneg z hpos.ne'
  have hbound : (z % 256 ^ w).toNat < 256 ^ w := by
    zify
    rwa [Int.toNat_of_nonneg hnonneg]
  rw [toSignedLE, ofLE_toLE _ _ hbound, Int.toNat_of_nonneg hnonneg]

section Words

variable {α : Type} [Word α]

def toLEBytes (a : α) : List UInt8 := toLE (Word.width α) (Word.toNat a)

/-- The word whose bytes come first, whatever follows them. -/
def fromLEBytes (α : Type) [Word α] (bs : List UInt8) : Option α :=
  if Word.width α ≤ bs.length then some (Word.ofNat (ofLE (bs.take (Word.width α)))) else none

@[simp] theorem length_toLEBytes (a : α) : (toLEBytes a).length = Word.width α := length_toLE _ _

theorem fromLEBytes_toLEBytes (a : α) (rest : List UInt8) :
    fromLEBytes α (toLEBytes a ++ rest) = some a := by
  have hlt : Word.toNat a < 256 ^ Word.width α := by
    rw [← Word.size_eq]; exact Word.toNat_lt a
  unfold fromLEBytes
  rw [if_pos (by simp only [List.length_append, length_toLEBytes]; omega),
    List.take_left' (length_toLEBytes a), toLEBytes, ofLE_toLE _ _ hlt]
  exact congrArg some (Word.toNat_injective (Word.toNat_ofNat _ (Word.toNat_lt a)))

/-- Bytes of the width of a word are those of the word they spell. -/
theorem toLEBytes_ofLE {bs : List UInt8} (h : bs.length = Word.width α) :
    toLEBytes (Word.ofNat (ofLE bs) : α) = bs := by
  have hlt : ofLE bs < Word.size α := by rw [Word.size_eq, ← h]; exact ofLE_lt bs
  rw [toLEBytes, Word.toNat_ofNat _ hlt, ← h, toLE_ofLE]

theorem toLEBytes_injective : Function.Injective (toLEBytes : α → List UInt8) := by
  intro a b h
  have ha := fromLEBytes_toLEBytes a []
  rw [h, fromLEBytes_toLEBytes] at ha
  exact (Option.some.inj ha).symm

end Words

/-- A binary format. An encoder may refuse a value; what it writes is read back. -/
class Codec (α : Type) where
  ser : α → Option (List UInt8)
  de : List UInt8 → Option (α × List UInt8)
  de_ser : ∀ a bs rest, ser a = some bs → de (bs ++ rest) = some (a, rest)

namespace Codec

variable {α β : Type}

/-- Decode a value that takes the whole slice. -/
def tryFromSlice (α : Type) [Codec α] (bs : List UInt8) : Option α :=
  match (de bs : Option (α × List UInt8)) with
  | some (a, []) => some a
  | _ => none

theorem tryFromSlice_ser [Codec α] {a : α} {bs : List UInt8} (h : ser a = some bs) :
    tryFromSlice α bs = some a := by
  have := de_ser a bs [] h
  rw [List.append_nil] at this
  simp only [tryFromSlice, this]

instance instWord [Word α] : Codec α where
  ser a := some (toLEBytes a)
  de bs := (fromLEBytes α bs).map fun a => (a, bs.drop (Word.width α))
  de_ser a bs rest h := by
    obtain rfl := Option.some.inj h
    rw [fromLEBytes_toLEBytes, Option.map_some, List.drop_left' (length_toLEBytes a)]

instance instBool : Codec Bool where
  ser b := some [if b then 1 else 0]
  de
    | 0 :: rest => some (false, rest)
    | 1 :: rest => some (true, rest)
    | _ => none
  de_ser b bs rest h := by
    obtain rfl := Option.some.inj h
    cases b <;> rfl

instance instOption [Codec α] : Codec (Option α) where
  ser
    | none => some [0]
    | some a => (ser a).map (1 :: ·)
  de
    | 0 :: rest => some (none, rest)
    | 1 :: rest => (de rest).map fun p => (some p.1, p.2)
    | _ => none
  de_ser o bs rest h := by
    cases o with
    | none => obtain rfl := Option.some.inj h; rfl
    | some a =>
      obtain ⟨cs, hcs, rfl⟩ := Option.map_eq_some_iff.1 h
      simp only [List.cons_append, de_ser a cs rest hcs, Option.map_some]

instance instProd [Codec α] [Codec β] : Codec (α × β) where
  ser p := (ser p.1).bind fun xs => (ser p.2).map (xs ++ ·)
  de bs := (de bs).bind fun p => (de p.2).map fun q => ((p.1, q.1), q.2)
  de_ser p bs rest h := by
    obtain ⟨xs, hx, h⟩ := Option.bind_eq_some_iff.1 h
    obtain ⟨ys, hy, rfl⟩ := Option.map_eq_some_iff.1 h
    rw [List.append_assoc, de_ser p.1 xs _ hx]
    simp only [Option.bind_some, de_ser p.2 ys _ hy, Option.map_some]

def utf8 (s : String) : List UInt8 := s.toByteArray.data.toList

@[simp] theorem length_utf8 (s : String) : (utf8 s).length = s.utf8ByteSize := by
  rw [← String.size_toByteArray]; rfl

theorem fromUTF8_utf8 (s : String) : String.fromUTF8? ⟨⟨utf8 s⟩⟩ = some s := by
  unfold String.fromUTF8?
  rw [dif_pos (show (⟨⟨utf8 s⟩⟩ : ByteArray).IsValidUTF8 from s.isValidUTF8)]
  rfl

/-- The bytes of a string after their number. -/
instance instString : Codec String where
  ser s := if s.utf8ByteSize < 2 ^ 32 then
      some (toLEBytes (UInt32.ofNat s.utf8ByteSize) ++ utf8 s) else none
  de bs := (fromLEBytes UInt32 bs).bind fun n =>
    if n.toNat ≤ bs.length - 4 then
      (String.fromUTF8? ⟨⟨(bs.drop 4).take n.toNat⟩⟩).map fun s => (s, (bs.drop 4).drop n.toNat)
    else none
  de_ser s bs rest h := by
    split_ifs at h with hlt
    obtain rfl := Option.some.inj h
    have hn : (UInt32.ofNat s.utf8ByteSize).toNat = s.utf8ByteSize := UInt32.toNat_ofNat_of_lt' hlt
    have hw : (toLEBytes (UInt32.ofNat s.utf8ByteSize)).length = 4 := length_toLEBytes _
    rw [List.append_assoc, fromLEBytes_toLEBytes, Option.bind_some, hn,
      List.drop_left' hw, List.take_left' (length_utf8 s), List.drop_left' (length_utf8 s),
      fromUTF8_utf8, if_pos (by simp only [List.length_append, hw, length_utf8]; omega),
      Option.map_some]

/-- A record read and written as the tuple of its fields. -/
@[reducible] def ofTuple [Codec β] (f : α → β) (g : β → α) (hg : ∀ a, g (f a) = a) : Codec α where
  ser a := ser (f a)
  de bs := (de bs).map fun p => (g p.1, p.2)
  de_ser a bs rest h := by
    rw [de_ser (f a) bs rest h, Option.map_some, hg]

end Codec

end Bytes
