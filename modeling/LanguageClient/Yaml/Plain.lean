import LanguageClient.Number.Reader
import LanguageClient.Value.Basic
import LanguageClient.Yaml.Scalar

/-!
What a plain scalar means: nothing, a truth value, a number, or the text it is.
-/

namespace LanguageClient.Yaml

/-- The kinds of scalars. -/
inductive Kind where
  | null
  | bool
  | int
  | float
  | text
  /-- Stands for the entries of other mappings. -/
  | merge
  /-- Of use only as a key. -/
  | standIn
deriving DecidableEq, Repr

namespace Plain

def nulls : List String := ["", "~", "null", "Null", "NULL"]

def trues : List String := ["yes", "Yes", "YES", "true", "True", "TRUE", "on", "On", "ON"]

def falses : List String := ["no", "No", "NO", "false", "False", "FALSE", "off", "Off", "OFF"]

def isDigit (c : Char) : Bool := '0' ≤ c && c ≤ '9'

def unsigned (cs : List Char) : List Char :=
  match cs with
  | '-' :: rest | '+' :: rest => rest
  | _ => cs

/-- A digit, then digits and underscores. -/
def isWhole (cs : List Char) : Bool :=
  match cs with
  | c :: rest => isDigit c && rest.all fun x => isDigit x || x = '_'
  | [] => false

/-- Parts between colons. -/
def parts (cs : List Char) : List (List Char) :=
  match cs with
  | [] => [[]]
  | ':' :: rest => [] :: parts rest
  | c :: rest => match parts rest with
    | p :: ps => (c :: p) :: ps
    | [] => [[c]]

/-- Sixtieths: two digits at most, the first of two below six. -/
def isSixtieth (cs : List Char) : Bool :=
  match cs with
  | [a] => isDigit a
  | [a, b] => '0' ≤ a && a ≤ '5' && isDigit b
  | _ => false

def isInt (cs : List Char) : Bool :=
  match unsigned cs with
  | '0' :: 'b' :: rest => !rest.isEmpty && rest.all fun c => c = '0' || c = '1' || c = '_'
  | '0' :: 'x' :: rest => !rest.isEmpty && rest.all fun c => (Quoted.hexValue? c).isSome || c = '_'
  | ['0'] => true
  | '0' :: rest => rest.all fun c => ('0' ≤ c && c ≤ '7') || c = '_'
  | rest => match parts rest with
    | whole :: sixtieths => isWhole whole && sixtieths.all isSixtieth
    | [] => false

/-- An exponent with its sign, or nothing. -/
def isExponent (cs : List Char) : Bool :=
  match cs with
  | [] => true
  | e :: s :: ds =>
    (e = 'e' || e = 'E') && (s = '-' || s = '+') && !ds.isEmpty && ds.all isDigit
  | _ => false

/-- Digits and underscores after a point, then perhaps an exponent. -/
def isFraction (cs : List Char) : Bool :=
  isExponent (cs.dropWhile fun c => isDigit c || c = '_')

def infinities : List String := [".inf", ".Inf", ".INF"]

def nans : List String := [".nan", ".NaN", ".NAN"]

/-- Whole sixtieths with a fraction after the last of them. -/
def isSixtiethFloat (cs : List Char) : Bool :=
  let fraction := (cs.dropWhile (· ≠ '.')).drop 1
  match parts (cs.takeWhile (· ≠ '.')) with
  | whole :: s :: rest =>
    isWhole whole && (s :: rest).all isSixtieth && fraction.all fun c => isDigit c || c = '_'
  | _ => false

/-- A point is needed; a sign needs a digit before it. -/
def isFloat (cs : List Char) : Bool :=
  let plain := unsigned cs
  if nans.contains (String.ofList cs) || infinities.contains (String.ofList plain) then true
  else if !plain.contains '.' then false
  else match cs with
    | '.' :: d :: rest => isDigit d && isFraction rest
    | _ =>
      let whole := plain.takeWhile (· ≠ '.')
      (isWhole whole && isFraction (plain.drop (whole.length + 1))) || isSixtiethFloat plain

def kind (s : String) : Kind :=
  if nulls.contains s then .null
  else if trues.contains s || falses.contains s then .bool
  else if isFloat s.toList then .float
  else if isInt s.toList then .int
  else if s = "<<" then .merge
  else if s = "=" then .standIn
  else .text

/-- The number that digits of a base make; underscores count for nothing. -/
def natOf (base : Nat) (cs : List Char) : Nat :=
  (cs.filterMap Quoted.hexValue?).foldl (fun n d => base * n + d) 0

def intOf (cs : List Char) : Int :=
  let n : Nat := match unsigned cs with
    | '0' :: 'b' :: rest => natOf 2 rest
    | '0' :: 'x' :: rest => natOf 16 rest
    | '0' :: rest => natOf 8 rest
    | rest => (parts rest).foldl (fun n p => 60 * n + natOf 10 p) 0
  if cs.head? = some '-' then -n else n

/-- Sixtieths as one fraction: the whole number of the last parts, and how many places it has. -/
def sixtieths (cs : List Char) : Nat × Nat :=
  let fraction := ((cs.dropWhile (· ≠ '.')).drop 1).filter isDigit
  let whole := (parts (cs.takeWhile (· ≠ '.'))).foldl (fun n p => 60 * n + natOf 10 p) 0
  (whole * Nat.pow 10 fraction.length + natOf 10 fraction, fraction.length)

def floatOf (cs : List Char) : Binary64 :=
  let negative : Bool := cs.head? = some '-'
  let plain := (unsigned cs).filter (· ≠ '_')
  if nans.contains (String.ofList cs) then .nan
  else if infinities.contains (String.ofList plain) then .infinite negative
  else if plain.contains ':' then
    let (n, places) := sixtieths plain
    .ofRatio negative n (Nat.pow 10 places)
  else ((Number.readDecimal? negative plain)).getD .nan

/-- The value of a plain scalar; none for those that have no value of their own. -/
def value? (s : String) : Option Value :=
  match kind s with
  | .null => some .null
  | .bool => some (.bool (trues.contains s))
  | .int => some (.int (intOf s.toList))
  | .float => some (.float (floatOf s.toList))
  | .text => some (.text s)
  | .merge | .standIn => none

theorem value?_null {s : String} (h : s ∈ nulls) : value? s = some .null := by
  have : kind s = .null := by simp [kind, h]
  simp [value?, this]

end Plain
end LanguageClient.Yaml
