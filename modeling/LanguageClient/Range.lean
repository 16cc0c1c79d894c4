import LanguageClient.Value.Integer

/-!
Visible ranges of a document: widened by a few lines, cut to the document, and merged where they
touch.
-/

namespace LanguageClient

/-- From one position to another, lines and characters counted from zero. -/
structure Range where
  startLine : Int
  startCharacter : Int
  endLine : Int
  endCharacter : Int
deriving DecidableEq, Repr, Inhabited

namespace Range

/-- A member of a position, zero if it is missing. -/
def coordinate (position : Entries) (name : String) : Except Failure Int :=
  match Entries.field? name position with
  | some v => v.toInt
  | none => .ok 0

/-- A position of a message; one that counts as false has no members. -/
def position (entries : Entries) (name : String) : Value :=
  match Entries.field? name entries with
  | some v => if v.truthy then v else .map []
  | none => .map []

def members : Value → Except Failure Entries
  | .map entries => .ok entries
  | v => .error (.noMember v.kind "get")

def ofValue (v : Value) : Except Failure Range := do
  let entries ← members v
  let start ← members (position entries "start")
  let startLine ← coordinate start "line"
  let startCharacter ← coordinate start "character"
  let stop ← members (position entries "end")
  let endLine ← coordinate stop "line"
  let endCharacter ← coordinate stop "character"
  .ok ⟨startLine, startCharacter, endLine, endCharacter⟩

def toValue (r : Range) : Value :=
  .record [
    ("start", .record [("line", .int r.startLine), ("character", .int r.startCharacter)]),
    ("end", .record [("line", .int r.endLine), ("character", .int r.endCharacter)])]

/-- Lines added on either side before a range is reported. -/
def margin : Int := 3

/-- Widens a range by `padding` lines, cut to a document of `lineCount` lines. -/
def pad (lineCount padding : Int) (r : Range) : Range :=
  let last := max (lineCount - 1) 0
  { r with
    startLine := min (max (r.startLine - padding) 0) last
    endLine := min (r.endLine + padding) last }

/-- The start of `r` is not after the start of `s`. -/
def startsBy (r s : Range) : Bool :=
  r.startLine < s.startLine ||
    (r.startLine = s.startLine && r.startCharacter ≤ s.startCharacter)

/-- The end of `r` is before the end of `s`. -/
def endsBefore (r s : Range) : Bool :=
  r.endLine < s.endLine || (r.endLine = s.endLine && r.endCharacter < s.endCharacter)

/-- A range starts inside an earlier one or where that ends. -/
def touches (before current : Range) : Bool :=
  current.startLine < before.endLine ||
    (current.startLine = before.endLine && current.startCharacter ≤ before.endCharacter)

/-- `before` goes on to the end of `current`, if that is later. -/
def absorb (before current : Range) : Range :=
  if before.endsBefore current then
    { before with endLine := current.endLine, endCharacter := current.endCharacter }
  else before

/-- Merges ranges that are in order of their starts; `before` is the one still growing. -/
def mergeFrom (before : Range) : List Range → List Range
  | [] => [before]
  | current :: rest =>
    if before.touches current then mergeFrom (before.absorb current) rest
    else before :: mergeFrom current rest

def mergeSorted : List Range → List Range
  | [] => []
  | r :: rest => mergeFrom r rest

def merge (ranges : List Range) : List Range :=
  mergeSorted (ranges.mergeSort startsBy)

def coalesce (ranges : List Range) (lineCount padding : Int) : List Range :=
  merge (ranges.map (pad lineCount padding))

theorem merge_nil : merge [] = [] := by simp [merge, mergeSorted]

theorem startsBy_total (r s : Range) : (r.startsBy s || s.startsBy r) = true := by
  simp only [startsBy, Bool.or_eq_true, decide_eq_true_eq, Bool.and_eq_true]
  omega

theorem startsBy_trans {r s t : Range} (h : r.startsBy s = true) (h' : s.startsBy t = true) :
    r.startsBy t = true := by
  simp only [startsBy, Bool.or_eq_true, decide_eq_true_eq, Bool.and_eq_true] at *
  omega

end Range
end LanguageClient
