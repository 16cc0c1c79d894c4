import LanguageClient.Number.Binary64

/-!
The text of a floating-point number: the fewest decimal digits that read back as the number, and of
those the nearest to it.
-/

namespace LanguageClient

/-- A decimal reading `0.d₁d₂… × 10 ^ point`. -/
structure Decimal where
  digits : List Char
  point : Int
deriving DecidableEq, Repr

namespace Binary64

/-- The power of ten just above the fraction: `10 ^ (p - 1) ≤ num / den < 10 ^ p`, found by
counting from an estimate that is never too large. -/
def decimalPoint (num den : Nat) : Int :=
  let guess : Int := ((Nat.toDigits 10 num).length : Int) - ((Nat.toDigits 10 den).length : Int)
  let reaches (p : Int) : Bool :=
    if 0 ≤ p then den * Nat.pow 10 p.toNat ≤ num else den ≤ num * Nat.pow 10 (-p).toNat
  if reaches guess then guess + 1 else guess

/-- The whole number of units `10 ^ unit` just below the fraction, and whether it is exact or the
fraction lies nearer to the next one. -/
def below (num den : Nat) (unit : Int) : Nat × Ordering :=
  let (n, d) := if 0 ≤ unit then (num, den * Nat.pow 10 unit.toNat)
    else (num * Nat.pow 10 (-unit).toNat, den)
  (n / d, compare (2 * (n % d)) d)

/-- The best reading with `count` digits, if one of the two neighbours on that grid reads back. -/
def withDigits? (m : Nat) (e : Int) (point : Int) (count : Nat) : Option Decimal :=
  let (num, den) := ratio m e
  let unit := point - count
  let (low, side) := below num den unit
  let back (k : Nat) : Bool := ofDecimal false k unit = .finite false m e
  let shown (k : Nat) : Decimal :=
    let cs := Nat.toDigits 10 k
    ⟨(cs.reverse.dropWhile (· = '0')).reverse, point + ((cs.length : Int) - count)⟩
  match back low, back (low + 1) with
  | true, true =>
    match side with
    | .lt => some (shown low)
    | .gt => some (shown (low + 1))
    | .eq => some (shown (if low % 2 = 0 then low else low + 1))
  | true, false => some (shown low)
  | false, true => some (shown (low + 1))
  | false, false => none

/-- The shortest reading of a finite number. -/
def shortest (m : Nat) (e : Int) : Decimal :=
  if m = 0 then ⟨['0'], 1⟩
  else
    let (num, den) := ratio m e
    let point := decimalPoint num den
    ((List.range' 1 17).findSome? (withDigits? m e point)).getD ⟨['0'], 1⟩

/-- An exponent has a sign and at least two digits. -/
def exponentText (n : Int) : List Char :=
  let ds := Nat.toDigits 10 n.natAbs
  (if n < 0 then ['-'] else ['+']) ++ (if ds.length < 2 then '0' :: ds else ds)

/-- Positional from `1e-4` up to below `1e16`, with at least one digit after the point; scientific
outside, and there a lone digit has no point. -/
def Decimal.text (d : Decimal) : List Char :=
  let n : Int := d.digits.length
  if -4 < d.point ∧ d.point ≤ 16 then
    if d.point ≤ 0 then '0' :: '.' :: (List.replicate (-d.point).toNat '0' ++ d.digits)
    else if n ≤ d.point then d.digits ++ List.replicate (d.point - n).toNat '0' ++ ['.', '0']
    else d.digits.take d.point.toNat ++ '.' :: d.digits.drop d.point.toNat
  else
    let mantissa := match d.digits with
      | [] => ['0']
      | [c] => [c]
      | c :: rest => c :: '.' :: rest
    mantissa ++ 'e' :: exponentText (d.point - 1)

/-- The spellings of the numbers that have no digits. -/
structure Spelling where
  nan : String
  infinity : String

def textWith (names : Spelling) : Binary64 → String
  | .nan => names.nan
  | .infinite false => names.infinity
  | .infinite true => "-" ++ names.infinity
  | .finite negative m e =>
    String.ofList ((if negative then ['-'] else []) ++ Decimal.text (shortest m e))

/-- As shown to a reader. -/
def display : Binary64 → String := textWith ⟨"nan", "inf"⟩

end Binary64
end LanguageClient
