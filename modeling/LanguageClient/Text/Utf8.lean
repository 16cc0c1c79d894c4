/-!
Bytes of a text, and the text of bytes. `decode?` takes well-formed bytes only; `decodeLossy` puts
a replacement character for each longest part that no well-formed character starts with or goes on
from.
-/

namespace LanguageClient.Text

abbrev Bytes := List UInt8

namespace Utf8

def encodeChar (c : Char) : Bytes :=
  let n := c.toNat
  if n < 0x80 then [n.toUInt8]
  else if n < 0x800 then [(0xc0 + n / 0x40).toUInt8, (0x80 + n % 0x40).toUInt8]
  else if n < 0x10000 then
    [(0xe0 + n / 0x1000).toUInt8, (0x80 + n / 0x40 % 0x40).toUInt8, (0x80 + n % 0x40).toUInt8]
  else
    [(0xf0 + n / 0x40000).toUInt8, (0x80 + n / 0x1000 % 0x40).toUInt8,
      (0x80 + n / 0x40 % 0x40).toUInt8, (0x80 + n % 0x40).toUInt8]

def encode (cs : List Char) : Bytes :=
  cs.flatMap encodeChar

def replacement : Char := Char.ofNat 0xfffd

def isTail (b : UInt8) : Bool := 0x80 ≤ b && b ≤ 0xbf

/-- The least and greatest second byte after the first one, and how many tails there are in all;
`none` for a byte that starts no longer character. -/
def lead? (b : UInt8) : Option (UInt8 × UInt8 × Nat) :=
  if 0xc2 ≤ b && b ≤ 0xdf then some (0x80, 0xbf, 1)
  else if b = 0xe0 then some (0xa0, 0xbf, 2)
  else if 0xe1 ≤ b && b ≤ 0xec then some (0x80, 0xbf, 2)
  else if b = 0xed then some (0x80, 0x9f, 2)
  else if 0xee ≤ b && b ≤ 0xef then some (0x80, 0xbf, 2)
  else if b = 0xf0 then some (0x90, 0xbf, 3)
  else if 0xf1 ≤ b && b ≤ 0xf3 then some (0x80, 0xbf, 3)
  else if b = 0xf4 then some (0x80, 0x8f, 3)
  else none

/-- A character in progress: its bits so far, the tails still owed, and the bounds of the next. -/
structure Unfinished where
  bits : Nat
  owed : Nat
  least : UInt8
  greatest : UInt8

def start (b : UInt8) : Option Unfinished :=
  (lead? b).map fun (least, greatest, tails) =>
    ⟨b.toNat % Nat.pow 2 (6 - tails), tails, least, greatest⟩

/-- What one more byte does: a character ends, one goes on, or the bytes so far are ill-formed. -/
inductive Step where
  | char (c : Char)
  | more (p : Unfinished)
  | bad

def Unfinished.next (p : Unfinished) (b : UInt8) : Step :=
  if p.least ≤ b && b ≤ p.greatest then
    let bits := p.bits * 0x40 + b.toNat % 0x40
    if p.owed ≤ 1 then .char (Char.ofNat bits) else .more ⟨bits, p.owed - 1, 0x80, 0xbf⟩
  else .bad

def first (b : UInt8) : Step :=
  if b < 0x80 then .char (Char.ofNat b.toNat)
  else match start b with
    | some p => .more p
    | none => .bad

def decodeFrom? : Option Unfinished → Bytes → Option (List Char)
  | none, [] => some []
  | some _, [] => none
  | p, b :: rest =>
    match (match p with | none => first b | some p => p.next b) with
    | .char c => (decodeFrom? none rest).map (c :: ·)
    | .more p => decodeFrom? (some p) rest
    | .bad => none

def decode? (bytes : Bytes) : Option (List Char) :=
  decodeFrom? none bytes

/-- A byte that cannot go on the character in progress is taken again as a first byte. -/
def decodeLossyFrom : Option Unfinished → Bytes → List Char
  | none, [] => []
  | some _, [] => [replacement]
  | none, b :: rest => match first b with
    | .char c => c :: decodeLossyFrom none rest
    | .more p => decodeLossyFrom (some p) rest
    | .bad => replacement :: decodeLossyFrom none rest
  | some p, b :: rest => match p.next b with
    | .char c => c :: decodeLossyFrom none rest
    | .more p => decodeLossyFrom (some p) rest
    | .bad => replacement :: match first b with
      | .char c => c :: decodeLossyFrom none rest
      | .more p => decodeLossyFrom (some p) rest
      | .bad => replacement :: decodeLossyFrom none rest

def decodeLossy (bytes : Bytes) : List Char :=
  decodeLossyFrom none bytes

theorem encode_append (cs ds : List Char) : encode (cs ++ ds) = encode cs ++ encode ds := by
  simp [encode, List.flatMap_append]

theorem encodeChar_ne_nil (c : Char) : encodeChar c ≠ [] := by
  unfold encodeChar
  dsimp only
  repeat' split
  all_goals simp

end Utf8

/-- Each byte as the character of its number; a byte above the ASCII range is not known. -/
def asciiLossy (bytes : Bytes) : List Char :=
  bytes.map fun b => if b < 0x80 then Char.ofNat b.toNat else Utf8.replacement

def utf8 (s : String) : Bytes := Utf8.encode s.toList

end LanguageClient.Text
