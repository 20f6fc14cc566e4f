import DominionSilver.Library.Decimals
import DominionSilver.Library.Slices
import DominionSilver.Spec.Clients

/-! How the apps show and read amounts: `formatSilv` of the admin app's and `parseDecimalToAtomic6` of
the public app's `lib/anchor-client.ts`. `none` is an error thrown. -/

namespace DominionSilver

open Doubles Decimals Slices

variable [BnJs]

namespace JsString

def unit (c : Char) : UInt16 := UInt16.ofNat c.toNat

def ofString (s : String) : JsString := s.toList.map unit

def isDigit (u : UInt16) : Bool := 48 ≤ u && u ≤ 57

/-- The white space and the line terminators that `trim` takes off. -/
def isSpace (u : UInt16) : Bool :=
  (9 ≤ u && u ≤ 13) || u = 0x20 || u = 0xA0 || u = 0x1680 || (0x2000 ≤ u && u ≤ 0x200A) ||
    u = 0x2028 || u = 0x2029 || u = 0x202F || u = 0x205F || u = 0x3000 || u = 0xFEFF

def trim (s : JsString) : JsString := (s.dropWhile isSpace).rdropWhile isSpace

/-- `String(n)` for a whole number. -/
def ofNat (n : ℕ) : JsString := (numeral n).map digitUnit

def padStart (s : JsString) (width : ℕ) (fill : UInt16) : JsString :=
  List.replicate (width - s.length) fill ++ s

/-- `toLocaleString("en-US")` for a whole number. -/
def toLocaleString (n : ℕ) : JsString := (group (unit ',') (ofNat n).reverse).reverse

end JsString

open JsString

namespace PublicApp

/-- `/^\d*\.?\d*$/`. -/
def isPlain (t : JsString) : Bool :=
  match t.dropWhile isDigit with
  | [] => true
  | u :: rest => u = unit '.' && rest.all isDigit

def parseDecimalToAtomic6 (input : JsString) : Option BN := do
  let t := trim input
  if isPlain t = false then return 0
  let parts := t.splitOn (unit '.')
  let whole := parts.getD 0 (JsString.ofString "0")
  let frac := parts.getD 1 (JsString.ofString "")
  let fracPadded := slice (frac ++ JsString.ofString "000000") 0 6
  let w ← BnJs.ofString (if whole = [] then JsString.ofString "0" else whole)
  let f ← BnJs.ofString (if fracPadded = [] then JsString.ofString "0" else fracPadded)
  return w * 1000000 + f

end PublicApp

namespace AdminApp

def formatSilv (raw : BN) : Option JsString := do
  let MICRO : BN := 1000000
  let neg := decide (raw < 0)
  let abs := if neg then -raw else raw
  let sign := JsString.ofString (if neg then "-" else "")
  let whole := toLocaleString (ofInt (abs.tdiv MICRO)).toNat
  let frac ← BnJs.toNumber (abs.tmod MICRO)
  if frac = 0 then return sign ++ whole
  -- the zeros at the end go
  let decimals := (padStart (JsString.ofNat frac.toNat) 6 (unit '0')).rdropWhile (· = unit '0')
  return if decimals ≠ [] then sign ++ whole ++ JsString.ofString "." ++ decimals else sign ++ whole

end AdminApp

end DominionSilver
