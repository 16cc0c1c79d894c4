import LanguageClient.Json.Printer
import LanguageClient.Text.Utf8

/-!
A message on the wire: a header with the length of the body, an empty line, and the body.
-/

namespace LanguageClient.Wire

/-- The body of a message; its characters are all ASCII. -/
def body (payload : Value) : List Char := Json.print Json.compact payload

def header (length : Nat) : List Char :=
  "Content-Length: ".toList ++ Nat.toDigits 10 length ++ ['\r', '\n', '\r', '\n']

def frameChars (payload : Value) : List Char :=
  let content := body payload
  header content.length ++ content

/-- The frame of a message as text. -/
def frameText (payload : Value) : String := String.ofList (frameChars payload)

/-- The frame of a message as bytes. -/
def frame (payload : Value) : Text.Bytes := (frameChars payload).map fun c => c.toNat.toUInt8

theorem frameChars_eq (payload : Value) :
    frameChars payload = header (body payload).length ++ body payload := rfl

theorem length_frame (payload : Value) :
    (frame payload).length = (header (body payload).length).length + (body payload).length := by
  simp [frame, frameChars_eq]

end LanguageClient.Wire
