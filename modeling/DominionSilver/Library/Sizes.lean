import DominionSilver.Library.Bytes

/-! How many bytes a value takes in a binary format. Bounds on the parts of a
value add up to a bound on the value, so a record fits where its fields do. A
type whose values all fit carries its bound, which is then read off the type. -/

namespace Bytes

open Checked

/-- The integer that some bytes in two's complement spell. -/
def ofSignedLE (bs : List UInt8) : ℤ :=
  if 2 * ofLE bs < 256 ^ bs.length then ofLE bs else ofLE bs - 256 ^ bs.length

theorem ofSignedLE_toSignedLE {w : ℕ} {z : ℤ} (hlow : -256 ^ w ≤ 2 * z) (hhigh : 2 * z < 256 ^ w) :
    ofSignedLE (toSignedLE w z) = z := by
  have hval := ofLE_toSignedLE w z
  have hcast : ((2 * ofLE (toSignedLE w z) < 256 ^ w : Prop) ↔ 2 * (z % 256 ^ w) < 256 ^ w) := by
    rw [← hval]
    exact_mod_cast Iff.rfl
  unfold ofSignedLE
  rw [length_toSignedLE, hval]
  rcases le_or_gt 0 z with hz | hz
  · have hmod : z % 256 ^ w = z := Int.emod_eq_of_lt hz (by omega)
    rw [if_pos (hcast.2 (by rw [hmod]; exact hhigh)), hmod]
  · have hmod : z % 256 ^ w = z + 256 ^ w := by
      rw [← Int.add_emod_right, Int.emod_eq_of_lt (by omega) (by omega)]
    rw [if_neg fun h => by have := hcast.1 h; omega, hmod]
    omega

namespace Codec

variable {α β : Type}

/-- An `i64`. An integer out of its range has no bytes. -/
instance instI64 : Codec ℤ where
  ser z := if I64 z then some (toSignedLE 8 z) else none
  de bs := if 8 ≤ bs.length then some (ofSignedLE (bs.take 8), bs.drop 8) else none
  de_ser z bs rest h := by
    split_ifs at h with hz
    obtain rfl := Option.some.inj h
    have hlen := length_toSignedLE 8 z
    have hread : ofSignedLE (toSignedLE 8 z) = z := by
      unfold I64 at hz
      exact ofSignedLE_toSignedLE (by omega) (by omega)
    rw [List.take_left' hlen, List.drop_left' hlen, hread,
      if_pos (by rw [List.length_append, hlen]; omega)]

/-- A `Vec<u8>`: the bytes after their number. -/
instance instBytes : Codec (List UInt8) where
  ser data := if data.length < 2 ^ 32 then
      some (toLEBytes (UInt32.ofNat data.length) ++ data) else none
  de bs := (fromLEBytes UInt32 bs).bind fun n =>
    if n.toNat ≤ bs.length - 4 then some ((bs.drop 4).take n.toNat, (bs.drop 4).drop n.toNat)
    else none
  de_ser data bs rest h := by
    split_ifs at h with hlt
    obtain rfl := Option.some.inj h
    have hn : (UInt32.ofNat data.length).toNat = data.length := UInt32.toNat_ofNat_of_lt' hlt
    have hw : (toLEBytes (UInt32.ofNat data.length)).length = 4 := length_toLEBytes _
    rw [List.append_assoc, fromLEBytes_toLEBytes, Option.bind_some, hn, List.drop_left' hw,
      List.take_left' rfl, List.drop_left' rfl,
      if_pos (by simp only [List.length_append, hw]; omega)]

/-- `a` is written, in at most `n` bytes. -/
def Fits [Codec α] (n : ℕ) (a : α) : Prop := ∃ bs, ser a = some bs ∧ bs.length ≤ n

theorem Fits.mono [Codec α] {m n : ℕ} {a : α} (h : Fits m a) (hmn : m ≤ n) : Fits n a := by
  obtain ⟨bs, hser, hlen⟩ := h
  exact ⟨bs, hser, hlen.trans hmn⟩

theorem fits_word [Word α] (a : α) : Fits (Word.width α) a :=
  ⟨toLEBytes a, rfl, (length_toLEBytes a).le⟩

theorem fits_bool (b : Bool) : Fits 1 b := ⟨_, rfl, le_rfl⟩

theorem fits_i64 {z : ℤ} (h : I64 z) : Fits 8 z :=
  ⟨toSignedLE 8 z, if_pos h, (length_toSignedLE 8 z).le⟩

theorem fits_bytes {n : ℕ} {data : List UInt8} (h : data.length ≤ n) (hn : n < 2 ^ 32) :
    Fits (4 + n) data := by
  refine ⟨_, if_pos (by omega), ?_⟩
  have hw : (toLEBytes (UInt32.ofNat data.length)).length = 4 := length_toLEBytes _
  rw [List.length_append, hw]
  omega

theorem fits_string {n : ℕ} {s : String} (h : s.utf8ByteSize ≤ n) (hn : n < 2 ^ 32) :
    Fits (4 + n) s := by
  refine ⟨_, if_pos (by omega), ?_⟩
  have hw : (toLEBytes (UInt32.ofNat s.utf8ByteSize)).length = 4 := length_toLEBytes _
  rw [List.length_append, hw, length_utf8]
  omega

theorem fits_option [Codec α] {n : ℕ} {o : Option α} (h : ∀ a, o = some a → Fits n a) :
    Fits (1 + n) o := by
  cases o with
  | none => exact ⟨[0], rfl, Nat.le_add_right 1 n⟩
  | some a =>
    obtain ⟨bs, hser, hlen⟩ := h a rfl
    have hsome : ser (some a) = (ser a).map (1 :: ·) := rfl
    exact ⟨1 :: bs, by rw [hsome, hser, Option.map_some], by rw [List.length_cons]; omega⟩

theorem Fits.prod [Codec α] [Codec β] {m n : ℕ} {a : α} {b : β} (ha : Fits m a) (hb : Fits n b) :
    Fits (m + n) (a, b) := by
  obtain ⟨xs, hx, hxs⟩ := ha
  obtain ⟨ys, hy, hys⟩ := hb
  refine ⟨xs ++ ys, by simp only [ser, hx, hy, Option.bind_some, Option.map_some], ?_⟩
  rw [List.length_append]
  omega

/-- A type all of whose values are written, in at most `maxSize` bytes. -/
class MaxSize (α : Type) [Codec α] where
  maxSize : ℕ
  fits : ∀ a : α, Fits maxSize a

instance [Word α] : MaxSize α := ⟨Word.width α, fits_word⟩

instance : MaxSize Bool := ⟨1, fits_bool⟩

instance [Codec α] [MaxSize α] : MaxSize (Option α) :=
  ⟨1 + MaxSize.maxSize α, fun _ => fits_option fun a _ => MaxSize.fits a⟩

instance [Codec α] [Codec β] [MaxSize α] [MaxSize β] : MaxSize (α × β) :=
  ⟨MaxSize.maxSize α + MaxSize.maxSize β, fun p => (MaxSize.fits p.1).prod (MaxSize.fits p.2)⟩

end Codec

/-- Write some bytes over the first ones of a buffer, which does not grow. -/
def overwrite (bs buffer : List UInt8) : Option (List UInt8) :=
  if bs.length ≤ buffer.length then some (bs ++ buffer.drop bs.length) else none

theorem overwrite_eq {bs buffer : List UInt8} (h : bs.length ≤ buffer.length) :
    ∃ rest, overwrite bs buffer = some (bs ++ rest) ∧ (bs ++ rest).length = buffer.length := by
  refine ⟨buffer.drop bs.length, if_pos h, ?_⟩
  rw [List.length_append, List.length_drop]
  omega

end Bytes
