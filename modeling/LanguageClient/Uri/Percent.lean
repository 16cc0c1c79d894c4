import LanguageClient.Json.Reader
import LanguageClient.Text.Utf8

/-!
Bytes written as a percent sign and two hexadecimal digits.
-/

namespace LanguageClient.Uri

/-- Written as they are: ASCII letters and digits, four marks and the slash. -/
def isPlain (b : UInt8) : Bool :=
  (0x30 ≤ b && b ≤ 0x39) || (0x41 ≤ b && b ≤ 0x5a) || (0x61 ≤ b && b ≤ 0x7a) ||
    b = 0x5f || b = 0x2e || b = 0x2d || b = 0x7e || b = 0x2f

def hexDigit (n : Nat) : Char :=
  Char.ofNat (if n < 10 then 0x30 + n else 0x41 + (n - 10))

def encodeByte (b : UInt8) : List Char :=
  if isPlain b then [Char.ofNat b.toNat]
  else ['%', hexDigit (b.toNat / 16), hexDigit (b.toNat % 16)]

def encode (bytes : Text.Bytes) : List Char := bytes.flatMap encodeByte

def isAscii (c : Char) : Bool := c.toNat < 0x80

/-- The bytes of ASCII characters; a percent sign without two digits stands for itself. -/
def bytesOf : List Char → Text.Bytes
  | [] => []
  | '%' :: a :: b :: rest => match Json.hexValue? a, Json.hexValue? b with
    | some x, some y => (x * 16 + y).toUInt8 :: bytesOf rest
    | _, _ => 0x25 :: bytesOf (a :: b :: rest)
  | c :: rest => c.toNat.toUInt8 :: bytesOf rest

/-- Decodes each run of ASCII characters by itself; `run` is the current one, newest first. -/
def decodeRuns (run : List Char) : List Char → List Char
  | [] => Text.Utf8.decodeLossy (bytesOf run.reverse)
  | c :: rest =>
    if isAscii c then decodeRuns (c :: run) rest
    else Text.Utf8.decodeLossy (bytesOf run.reverse) ++ c :: decodeRuns [] rest

def decode (cs : List Char) : List Char := decodeRuns [] cs

theorem encode_append (a b : Text.Bytes) : encode (a ++ b) = encode a ++ encode b := by
  simp [encode, List.flatMap_append]

theorem hexValue?_hexDigit {n : Nat} (h : n < 16) : Json.hexValue? (hexDigit n) = some n :=
  (by decide : ∀ n : Fin 16, Json.hexValue? (hexDigit n) = some n.val) ⟨n, h⟩

theorem bytesOf_cons {c : Char} (h : c ≠ '%') (rest : List Char) :
    bytesOf (c :: rest) = c.toNat.toUInt8 :: bytesOf rest := by
  rw [bytesOf.eq_def]
  split <;> simp_all

theorem toNat_ofNat_byte (b : UInt8) : (Char.ofNat b.toNat).toNat = b.toNat := by
  have small : b.toNat.isValidChar := .inl (by have := b.toNat_lt; omega)
  rw [Char.ofNat, dif_pos small]
  rfl

/-- A byte is read back from what it is written as. -/
theorem bytesOf_encodeByte (b : UInt8) (rest : List Char) :
    bytesOf (encodeByte b ++ rest) = b :: bytesOf rest := by
  have back : b.toNat.toUInt8 = b := UInt8.toNat_inj.1 (by simp)
  unfold encodeByte
  split
  · rename_i h
    have number := toNat_ofNat_byte b
    rw [List.singleton_append, bytesOf_cons, number, back]
    intro same
    have : b = 0x25 := UInt8.toNat_inj.1 (by rw [← number, same]; rfl)
    subst this
    exact absurd h (by decide)
  · have high : b.toNat / 16 < 16 := by have := b.toNat_lt; omega
    simp only [List.cons_append, List.nil_append, bytesOf, hexValue?_hexDigit high,
      hexValue?_hexDigit (Nat.mod_lt _ (by decide : 0 < 16))]
    rw [Nat.mul_comm, Nat.div_add_mod, back]

theorem bytesOf_encode (bytes : Text.Bytes) : bytesOf (encode bytes) = bytes := by
  induction bytes with
  | nil => rfl
  | cons b rest ih =>
    rw [encode, List.flatMap_cons, bytesOf_encodeByte]
    exact congrArg (b :: ·) ih

end LanguageClient.Uri
