import LanguageClient.Text.Utf8

/-!
Bytes that have arrived and not been read yet. Reading up to a line end or a marker looks no further
than a limit; where it stops without success it says why.
-/

namespace LanguageClient.Wire

open Text (Bytes)

structure Stream where
  buffer : Bytes
  /-- Nothing more will arrive. -/
  ended : Bool
deriving DecidableEq, Repr, Inhabited

namespace Stream

def empty : Stream := ⟨[], false⟩

def ofBytes (bytes : Bytes) : Stream := ⟨bytes, true⟩

/-- How far into the buffer a line end or a marker may stand. -/
def limit : Nat := 65536

def feed (bytes : Bytes) (s : Stream) : Stream := { s with buffer := s.buffer ++ bytes }

def finish (s : Stream) : Stream := { s with ended := true }

def newline : UInt8 := 10

def marker : Bytes := "Content-Length:".toList.map fun c => c.toNat.toUInt8

/-- Where `part` first occurs, counted from `index`. -/
def offset? (part : Bytes) (index : Nat) : Bytes → Option Nat
  | [] => if part.isEmpty then some index else none
  | b :: rest => if part.isPrefixOf (b :: rest) then some index else offset? part (index + 1) rest

/-- What reading a line comes to. -/
inductive LineRead where
  | line (bytes : Bytes) (rest : Stream)
  /-- Too long, with or without an end in sight; the bytes are dropped. -/
  | tooLong (ended : Bool) (rest : Stream)
  | wait
deriving DecidableEq, Repr

/-- A line with its end, or what is left when nothing more arrives. -/
def readLine (s : Stream) : LineRead :=
  match offset? [newline] 0 s.buffer with
  | some i =>
    let rest := { s with buffer := s.buffer.drop (i + 1) }
    if limit < i then .tooLong true rest else .line (s.buffer.take (i + 1)) rest
  | none =>
    if limit < s.buffer.length then .tooLong false { s with buffer := [] }
    else if s.ended then .line s.buffer { s with buffer := [] }
    else .wait

/-- What looking for the marker comes to. -/
inductive MarkerRead where
  | found (rest : Stream)
  /-- Bytes that cannot be part of a marker in reach are dropped, and the search goes on. -/
  | skipped (rest : Stream)
  | missing (rest : Stream)
  | wait
deriving DecidableEq, Repr

def readMarker (s : Stream) : MarkerRead :=
  match offset? marker 0 s.buffer with
  | some i =>
    if limit < i then .skipped { s with buffer := s.buffer.drop i }
    else .found { s with buffer := s.buffer.drop (i + marker.length) }
  | none =>
    let past := s.buffer.length + 1 - marker.length
    if limit < past then .skipped { s with buffer := s.buffer.drop past }
    else if s.ended then .missing { s with buffer := [] }
    else .wait

inductive ExactRead where
  | bytes (bytes : Bytes) (rest : Stream)
  | missing (rest : Stream)
  | wait
deriving DecidableEq, Repr

def readExactly (n : Nat) (s : Stream) : ExactRead :=
  if n ≤ s.buffer.length then .bytes (s.buffer.take n) { s with buffer := s.buffer.drop n }
  else if s.ended then .missing { s with buffer := [] }
  else .wait

theorem feed_feed (a b : Bytes) (s : Stream) : (s.feed a).feed b = s.feed (a ++ b) := by
  simp [feed]

theorem readExactly_wait {n : Nat} {s : Stream} (h : s.buffer.length < n) (he : s.ended = false) :
    s.readExactly n = .wait := by
  simp [readExactly, Nat.not_le.2 h, he]

end Stream
end LanguageClient.Wire
