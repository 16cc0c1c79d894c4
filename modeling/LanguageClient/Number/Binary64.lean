/-!
Sixty-four bit floating-point numbers as exact data: a sign, a whole significand and a power of two.

`ofRatio` rounds a fraction to the nearest of them, a tie to the even significand.
-/

namespace LanguageClient

inductive Binary64 where
  | nan
  | infinite (negative : Bool)
  | finite (negative : Bool) (significand : Nat) (exponent : Int)
deriving DecidableEq, Repr, Inhabited

namespace Binary64

/-- The least exponent; it is also the exponent of zero. -/
def minExponent : Int := -1074

def maxExponent : Int := 971

/-- Significands stay below this. -/
def significandLimit : Nat := 9007199254740992

def zero : Binary64 := .finite false 0 minExponent

/-- The quotient rounded to the nearest whole number, a tie to the even one. -/
def roundDiv (num den : Nat) : Nat :=
  let q := num / den
  let r := num % den
  if den < 2 * r ∨ (2 * r = den ∧ q % 2 = 1) then q + 1 else q

/-- `num / den` in units of `2 ^ e`, as a fraction. -/
def scaled (num den : Nat) (e : Int) : Nat × Nat :=
  if 0 ≤ e then (num, den * Nat.pow 2 e.toNat) else (num * Nat.pow 2 (-e).toNat, den)

/-- Rounds `num / den` at the exponent `e`; a carry out of the significand moves to the next one. -/
def roundAt (negative : Bool) (num den : Nat) (e : Int) : Binary64 :=
  let (n, d) := scaled num den e
  let m := roundDiv n d
  let (m, e) := if m = significandLimit then (significandLimit / 2, e + 1) else (m, e)
  if maxExponent < e then .infinite negative else .finite negative m e

/-- The number nearest to `num / den`. -/
def ofRatio (negative : Bool) (num den : Nat) : Binary64 :=
  if num = 0 ∨ den = 0 then .finite negative 0 minExponent
  else
    let low : Int := max minExponent ((Nat.log2 num : Int) - (Nat.log2 den : Int) - 53)
    let (n, d) := scaled num den low
    if n / d < significandLimit then roundAt negative num den low
    else roundAt negative num den (low + 1)

/-- The number nearest to `digits * 10 ^ exponent`. Outside the exponents that can matter the
result is decided by the exponent alone. -/
def ofDecimal (negative : Bool) (digits : Nat) (exponent : Int) : Binary64 :=
  let size : Int := (Nat.toDigits 10 digits).length
  if digits = 0 then .finite negative 0 minExponent
  else if 400 < exponent + size then .infinite negative
  else if exponent + size < -400 then .finite negative 0 minExponent
  else if 0 ≤ exponent then ofRatio negative (digits * Nat.pow 10 exponent.toNat) 1
  else ofRatio negative digits (Nat.pow 10 (-exponent).toNat)

def ofInt (n : Int) : Binary64 := ofRatio (n < 0) n.natAbs 1

/-- The absolute value of a finite number as a fraction. -/
def ratio (significand : Nat) (exponent : Int) : Nat × Nat :=
  if 0 ≤ exponent then (significand * Nat.pow 2 exponent.toNat, 1)
  else (significand, Nat.pow 2 (-exponent).toNat)

def isZero : Binary64 → Bool
  | .finite _ 0 _ => true
  | _ => false

/-- The whole part, the fraction dropped; there is none for an infinity or a missing number. -/
def truncate? : Binary64 → Option Int
  | .finite negative m e =>
    let (n, d) := ratio m e
    let q : Int := n / d
    some (if negative then -q else q)
  | _ => none

/-- The whole number this is, if it is one. -/
def whole? : Binary64 → Option Int
  | .finite negative m e =>
    let (n, d) := ratio m e
    if n % d = 0 then
      let q : Int := n / d
      some (if negative then -q else q)
    else none
  | _ => none

theorem isZero_zero : zero.isZero = true := rfl

theorem truncate?_infinite (negative : Bool) : (infinite negative).truncate? = none := rfl

theorem truncate?_nan : nan.truncate? = none := rfl

end Binary64
end LanguageClient
