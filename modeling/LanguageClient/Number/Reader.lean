import LanguageClient.Number.Binary64
import LanguageClient.Text.Blank
import LanguageClient.Text.Digit

/-!
Numbers written in a text: digits of any script, single underscores between digits, a sign in
front, and blanks around.
-/

namespace LanguageClient.Number

/-- Blank for a reader of numbers: the information separators are not. -/
def isBlank (c : Char) : Bool :=
  Text.isBlank c && !(0x1c ≤ c.toNat && c.toNat ≤ 0x1f)

def strip (cs : List Char) : List Char :=
  Text.dropEndWhile isBlank (cs.dropWhile isBlank)

/-- Every underscore stands between two digits. -/
def underscoresFit : (before : Bool) → List Char → Bool
  | _, [] => true
  | before, '_' :: rest => before && (match rest with
      | c :: _ => (Text.digitValue? c).isSome
      | [] => false) && underscoresFit false rest
  | _, c :: rest => underscoresFit (Text.digitValue? c).isSome rest

/-- The text without its underscores, if these all stand between digits. -/
def withoutUnderscores? (cs : List Char) : Option (List Char) :=
  if underscoresFit false cs then some (cs.filter (· ≠ '_')) else none

/-- The digits at the front, as values, and what follows. -/
def digits : List Char → List Nat × List Char
  | [] => ([], [])
  | c :: rest => match Text.digitValue? c with
    | some d => let (ds, after) := digits rest; (d :: ds, after)
    | none => ([], c :: rest)

def ofDigits (ds : List Nat) : Nat :=
  ds.foldl (fun n d => 10 * n + d) 0

/-- A sign in front, and what follows it. -/
def sign : List Char → Bool × List Char
  | '-' :: rest => (true, rest)
  | '+' :: rest => (false, rest)
  | cs => (false, cs)

def readIntChars? (cs : List Char) : Option Int := do
  let cs ← withoutUnderscores? (strip cs)
  let (negative, cs) := sign cs
  let (ds, rest) := digits cs
  if ds.isEmpty || !rest.isEmpty then none
  else
    let n : Int := ofDigits ds
    some (if negative then -n else n)

def readInt? (s : String) : Option Int :=
  readIntChars? s.toList

/-- The exponent after an `e`, if there is one. -/
def exponent? : List Char → Option Int
  | [] => some 0
  | c :: rest =>
    if c = 'e' || c = 'E' then
      let (negative, rest) := sign rest
      let (ds, after) := digits rest
      if ds.isEmpty || !after.isEmpty then none
      else
        let n : Int := ofDigits ds
        some (if negative then -n else n)
    else none

/-- Digits, a point and digits, of which one side may lack, then perhaps an exponent. -/
def readDecimal? (negative : Bool) (cs : List Char) : Option Binary64 :=
  let (whole, rest) := digits cs
  let (fraction, rest) := match rest with
    | '.' :: after => digits after
    | _ => ([], rest)
  if whole.isEmpty && fraction.isEmpty then none
  else (exponent? rest).map fun e =>
    .ofDecimal negative (ofDigits (whole ++ fraction)) (e - fraction.length)

def readFloatChars? (cs : List Char) : Option Binary64 := do
  let cs ← withoutUnderscores? (strip cs)
  let (negative, cs) := sign cs
  let name := cs.map Char.toLower
  if name = ['n', 'a', 'n'] then some .nan
  else if name = ['i', 'n', 'f'] || name = ['i', 'n', 'f', 'i', 'n', 'i', 't', 'y'] then
    some (.infinite negative)
  else readDecimal? negative cs

def readFloat? (s : String) : Option Binary64 :=
  readFloatChars? s.toList

theorem ofDigits_append (ds es : List Nat) :
    ofDigits (ds ++ es) = es.foldl (fun n d => 10 * n + d) (ofDigits ds) := by
  simp [ofDigits, List.foldl_append]

end LanguageClient.Number
