import LanguageClient.Failure
import LanguageClient.Json.Reader
import LanguageClient.Number.Reader
import LanguageClient.Wire.Stream

/-!
Reading messages from a stream. A frame without a usable length is passed over, up to the next
header that names one; the fault counts only if no such header follows. A body that is no message
is a fault, and the next frame starts after it.
-/

namespace LanguageClient.Wire

open Text (Bytes)

/-- Where the reader stands in a frame. -/
inductive Point where
  /-- In a header block of some size so far. `line` is a line that has been read already. -/
  | header (headers : Entries) (size : Nat) (line : Option Bytes)
  /-- Looking for a header that names a length, because of a fault. -/
  | skipping (fault : FrameFault)
  /-- After the name of such a header. -/
  | marked (fault : FrameFault)
  | body (length : Nat)
deriving DecidableEq, Repr

namespace Point

def start : Point := .header [] 0 none

end Point

/-- What reading comes to. -/
inductive Reading where
  | message (v : Value)
  | fault (f : FrameFault)
  | ended
  /-- More bytes are needed to go on from here. -/
  | wait (p : Point)
deriving DecidableEq, Repr

/-- One step: on to another point of the frame, or an outcome. -/
inductive Step where
  | on (p : Point)
  | out (r : Reading)
deriving DecidableEq, Repr

/-- The most bytes of a header block. -/
def headerLimit : Nat := 4096

def lengthHeader : String := "content-length"

/-- The length that the headers name; it counts only above zero. -/
def contentLength? (headers : Entries) : Option Nat :=
  match Entries.field? lengthHeader headers with
  | some (.text s) => match Number.readInt? s with
    | some n => if 0 < n then some n.toNat else none
    | none => none
  | _ => none

/-- The headers after a line with a colon in it. -/
def putHeader (line : List Char) (headers : Entries) : Entries :=
  let name := line.takeWhile (· ≠ ':')
  let value := line.drop (name.length + 1)
  let lowered := (Text.trimChars name).map Char.toLower
  Entries.put (.text (String.ofList lowered)) (.text (String.ofList (Text.trimChars value))) headers

/-- What a line of the header block does. A blank line ends the block once there is a header. -/
def afterLine (headers : Entries) (size : Nat) (bytes : Bytes) : Step :=
  let size := size + bytes.length
  if headerLimit < size then .on (.skipping .headerTooLong)
  else
    let line := Text.trimChars (Text.asciiLossy bytes)
    if line.isEmpty then
      if headers.isEmpty then .on (.header headers size none)
      else match contentLength? headers with
        | some n => .on (.body n)
        | none => .on (.skipping (.noLength headers))
    else if line.contains ':' then .on (.header (putHeader line headers) size none)
    else .on (.header headers size none)

/-- The message in a body. -/
def messageOf (bytes : Bytes) : Reading :=
  match Text.Utf8.decode? bytes with
  | none => .fault .undecodable
  | some cs => match Json.read? cs with
    | none => .fault .undecodable
    | some (.map entries) => .message (.map entries)
    | some v => .fault (.notMapping v.kind)

def step (p : Point) (s : Stream) : Step × Stream :=
  match p with
  | .header headers size (some line) => (afterLine headers size line, s)
  | .header headers size none => match s.readLine with
    | .wait => (.out (.wait p), s)
    | .tooLong ended rest => (.on (.skipping (.lineTooLong ended)), rest)
    | .line [] rest => (.out .ended, rest)
    | .line bytes rest => (afterLine headers size bytes, rest)
  | .skipping fault => match s.readMarker with
    | .wait => (.out (.wait p), s)
    | .skipped rest => (.on p, rest)
    | .missing rest => (.out (.fault fault), rest)
    | .found rest => (.on (.marked fault), rest)
  | .marked fault => match s.readLine with
    | .wait => (.out (.wait p), s)
    | .tooLong _ rest => (.out (.fault fault), rest)
    | .line bytes rest => (.on (.header [] 0 (some (Stream.marker ++ bytes))), rest)
  | .body n => match s.readExactly n with
    | .wait => (.out (.wait p), s)
    | .missing rest => (.out .ended, rest)
    | .bytes bytes rest => (.out (messageOf bytes), rest)

/-- Steps on until there is an outcome. -/
def run : (fuel : Nat) → Point → Stream → Reading × Stream
  | 0, p, s => (.wait p, s)
  | fuel + 1, p, s => match step p s with
    | (.out r, s) => (r, s)
    | (.on p, s) => run fuel p s

/-- Steps that a stream can need: each point but those around a marker takes bytes from it. -/
def enough (s : Stream) : Nat := 4 * s.buffer.length + 4

/-- Reads one message, or as far as the stream goes. -/
def read (p : Point) (s : Stream) : Reading × Stream :=
  run (enough s) p s

/-- All that a finished stream holds, at most `count` readings. -/
def readAll : (count : Nat) → Stream → List Reading
  | 0, _ => []
  | count + 1, s => match read .start s with
    | (.ended, _) => [.ended]
    | (r, s) => r :: readAll count s

theorem contentLength?_nil : contentLength? [] = none := rfl

theorem step_start_ended : step .start (Stream.ofBytes []) = (.out .ended, Stream.ofBytes []) := rfl

theorem run_out {fuel : Nat} {p : Point} {s s' : Stream} {r : Reading}
    (h : step p s = (.out r, s')) : run (fuel + 1) p s = (r, s') := by
  simp [run, h]

theorem run_on {fuel : Nat} {p p' : Point} {s s' : Stream}
    (h : step p s = (.on p', s')) : run (fuel + 1) p s = run fuel p' s' := by
  simp [run, h]

end LanguageClient.Wire
