import LanguageClient.Number.Binary64
import LanguageClient.Value.Basic

/-!
Reading JSON text. Beyond the standard, `NaN`, `Infinity` and `-Infinity` are numbers. Of members
with one name the last value counts, at the place of the first.

Each reader returns what it read and the rest of the text; `fuel` bounds the depth and the number of
items, and the length of the text is always enough.
-/

namespace LanguageClient.Json

def isBlank (c : Char) : Bool := c = ' ' || c = '\t' || c = '\n' || c = '\r'

def skipBlanks (cs : List Char) : List Char := cs.dropWhile isBlank

def hexValue? (c : Char) : Option Nat :=
  if '0' ≤ c && c ≤ '9' then some (c.toNat - 0x30)
  else if 'a' ≤ c && c ≤ 'f' then some (c.toNat - 0x61 + 10)
  else if 'A' ≤ c && c ≤ 'F' then some (c.toNat - 0x41 + 10)
  else none

/-- A sixteen-bit unit written as four hexadecimal digits. -/
def unit? : List Char → Option (Nat × List Char)
  | a :: b :: c :: d :: rest => do
    let a ← hexValue? a
    let b ← hexValue? b
    let c ← hexValue? c
    let d ← hexValue? d
    some (((a * 16 + b) * 16 + c) * 16 + d, rest)
  | _ => none

def isHigh (n : Nat) : Bool := 0xd800 ≤ n && n < 0xdc00

def isLow (n : Nat) : Bool := 0xdc00 ≤ n && n < 0xe000

/-- The character after `\u`: a high unit joins a low one that follows it, and a unit left alone is
no character. -/
def escapedUnit? (cs : List Char) : Option (Char × List Char) := do
  let (n, rest) ← unit? cs
  if isHigh n then
    match rest with
    | '\\' :: 'u' :: more =>
      let (m, after) ← unit? more
      if isLow m then some (Char.ofNat (0x10000 + (n - 0xd800) * 0x400 + (m - 0xdc00)), after)
      else some (Char.ofNat 0xfffd, rest)
    | _ => some (Char.ofNat 0xfffd, rest)
  else if isLow n then some (Char.ofNat 0xfffd, rest)
  else some (Char.ofNat n, rest)

def escaped? : List Char → Option (Char × List Char)
  | '"' :: rest => some ('"', rest)
  | '\\' :: rest => some ('\\', rest)
  | '/' :: rest => some ('/', rest)
  | 'b' :: rest => some (Char.ofNat 0x8, rest)
  | 'f' :: rest => some (Char.ofNat 0xc, rest)
  | 'n' :: rest => some ('\n', rest)
  | 'r' :: rest => some ('\r', rest)
  | 't' :: rest => some ('\t', rest)
  | 'u' :: rest => escapedUnit? rest
  | _ => none

/-- The characters up to the closing quote, newest first in `done`. -/
def readString : (fuel : Nat) → (done : List Char) → List Char → Option (String × List Char)
  | 0, _, _ => none
  | _ + 1, _, [] => none
  | fuel + 1, done, c :: rest =>
    if c = '"' then some (String.ofList done.reverse, rest)
    else if c = '\\' then
      match escaped? rest with
      | some (e, after) => readString fuel (e :: done) after
      | none => none
    else if c.toNat < 0x20 then none
    else readString fuel (c :: done) rest

def isDigit (c : Char) : Bool := '0' ≤ c && c ≤ '9'

def natOfDigits (cs : List Char) : Nat :=
  cs.foldl (fun n c => 10 * n + (c.toNat - 0x30)) 0

/-- The digits at the front and what follows them. -/
def spanDigits (cs : List Char) : List Char × List Char :=
  (cs.takeWhile isDigit, cs.dropWhile isDigit)

/-- Digits after a point; a point without digits is not part of the number. -/
def readFraction (cs : List Char) : Option (List Char) × List Char :=
  match cs with
  | '.' :: rest =>
    let (ds, after) := spanDigits rest
    if ds.isEmpty then (none, cs) else (some ds, after)
  | _ => (none, cs)

/-- An exponent; one without digits is not part of the number. -/
def readExponent (cs : List Char) : Option Int × List Char :=
  match cs with
  | c :: rest =>
    if c = 'e' || c = 'E' then
      let (negative, digits) := match rest with
        | '-' :: r => (true, r)
        | '+' :: r => (false, r)
        | _ => (false, rest)
      let (ds, after) := spanDigits digits
      if ds.isEmpty then (none, cs)
      else
        let n : Int := natOfDigits ds
        (some (if negative then -n else n), after)
    else (none, cs)
  | [] => (none, cs)

/-- The whole part of a number: a lone zero, or digits that start with another. -/
def readWhole? (cs : List Char) : Option (List Char × List Char) :=
  match cs with
  | '0' :: rest => some (['0'], rest)
  | _ =>
    let (ds, rest) := spanDigits cs
    if ds.isEmpty then none else some (ds, rest)

/-- A number is whole unless it has a fraction or an exponent. -/
def readNumber (cs : List Char) : Option (Value × List Char) := do
  let (negative, unsigned) := match cs with
    | '-' :: r => (true, r)
    | _ => (false, cs)
  let (whole, rest) ← readWhole? unsigned
  let (fraction, rest) := readFraction rest
  let (exponent, rest) := readExponent rest
  match fraction, exponent with
  | none, none =>
    let n : Int := natOfDigits whole
    some (.int (if negative then -n else n), rest)
  | _, _ =>
    let fraction := fraction.getD []
    let digits := natOfDigits (whole ++ fraction)
    some (.float (.ofDecimal negative digits (exponent.getD 0 - fraction.length)), rest)

/-- The words that are values. -/
def words : List (List Char × Value) := [
  ("null".toList, .null), ("true".toList, .bool true), ("false".toList, .bool false),
  ("NaN".toList, .float .nan), ("Infinity".toList, .float (.infinite false)),
  ("-Infinity".toList, .float (.infinite true))]

def readWord (cs : List Char) : Option (Value × List Char) :=
  words.findSome? fun (word, v) =>
    if word.isPrefixOf cs then some (v, cs.drop word.length) else none

mutual

def readValue : (fuel : Nat) → List Char → Option (Value × List Char)
  | 0, _ => none
  | fuel + 1, cs => match cs with
    | '"' :: rest => match readString (rest.length + 1) [] rest with
      | some (s, after) => some (.text s, after)
      | none => none
    | '[' :: rest => match skipBlanks rest with
      | ']' :: after => some (.list [], after)
      | inner => readItems fuel [] inner
    | '{' :: rest => match skipBlanks rest with
      | '}' :: after => some (.map [], after)
      | inner => readMembers fuel [] inner
    | _ => match readWord cs with
      | some r => some r
      | none => readNumber cs

/-- Items up to the closing bracket, newest first in `done`. -/
def readItems : (fuel : Nat) → (done : List Value) → List Char → Option (Value × List Char)
  | 0, _, _ => none
  | fuel + 1, done, cs => match readValue fuel cs with
    | none => none
    | some (v, rest) => match skipBlanks rest with
      | ',' :: more => readItems fuel (v :: done) (skipBlanks more)
      | ']' :: after => some (.list (v :: done).reverse, after)
      | _ => none

def readMembers : (fuel : Nat) → (done : Entries) → List Char → Option (Value × List Char)
  | 0, _, _ => none
  | fuel + 1, done, cs => match cs with
    | '"' :: inner => match readString (inner.length + 1) [] inner with
      | none => none
      | some (name, rest) => match skipBlanks rest with
        | ':' :: more => match readValue fuel (skipBlanks more) with
          | none => none
          | some (v, rest) => match skipBlanks rest with
            | ',' :: more => readMembers fuel (Entries.put (.text name) v done) (skipBlanks more)
            | '}' :: after => some (.map (Entries.put (.text name) v done), after)
            | _ => none
        | _ => none
    | _ => none

end

/-- The value of a whole text, with blanks around it. -/
def read? (cs : List Char) : Option Value :=
  match readValue (cs.length + 1) (skipBlanks cs) with
  | some (v, rest) => if (skipBlanks rest).isEmpty then some v else none
  | none => none

def parse? (s : String) : Option Value := read? s.toList

end LanguageClient.Json
