import DominionSilver.Library.Decimals
import DominionSilver.Library.Doubles

/-! The library that the apps keep large numbers in, `bn.js`. It is not part of the repository, so
it stands here for whatever does what it documents: its numbers are integers of any size, a `number`
that takes part in an operation has 26 bits at most, and one that comes out has 53. `none` is an
error that it throws. -/

namespace DominionSilver

open Decimals Doubles

/-- A string is its UTF-16 code units, of any kind. -/
abbrev JsString := List UInt16

/-- The character of a digit. -/
def JsString.digitUnit (d : ℕ) : UInt16 := UInt16.ofNat (48 + d)

abbrev BN := ℤ

def BN.ofU64 (a : UInt64) : BN := a.toNat

/-- What is not said of an operation here is left open: another string than a run of digits,
negative factors and divisors, and clocks of more than 26 bits. -/
class BnJs where
  ofString : JsString → Option BN
  toNumber : BN → Option ℤ
  muln : BN → ℤ → Option BN
  divn : BN → ℤ → Option BN
  gtn : BN → ℤ → Option Bool
  ofString_digits : ∀ ds, ds ≠ [] → Digits ds →
    ofString (ds.map JsString.digitUnit) = some (value ds : ℤ)
  toNumber_eq : ∀ a, toNumber a = if Safe a then some a else none
  muln_eq : ∀ a n, 0 ≤ n → muln a n = if n < 0x4000000 then some (a * n) else none
  divn_eq : ∀ a n, 0 < n → divn a n = if n < 0x4000000 then some (a.tdiv n) else none
  gtn_eq : ∀ a n, 0 ≤ n → n < 0x4000000 → gtn a n = some (decide (n < a))

end DominionSilver
