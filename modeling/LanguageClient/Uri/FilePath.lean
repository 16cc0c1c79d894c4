import LanguageClient.Failure

/-!
File paths in normal form: repeated slashes and single dots are dropped, double dots stay. Exactly
two slashes in front are a root of their own.
-/

namespace LanguageClient

structure FilePath where
  /-- Slashes in front: none for a relative path, else one or two. -/
  slashes : Nat
  segments : List (List Char)
deriving DecidableEq, Repr, Inhabited

namespace FilePath

/-- The parts between separators, in order; there is one more than there are separators. -/
def splitAt (sep : Char) : List Char → List (List Char)
  | [] => [[]]
  | c :: rest =>
    if c = sep then [] :: splitAt sep rest
    else match splitAt sep rest with
      | [] => [[c]]
      | part :: parts => (c :: part) :: parts

def rootSlashes (cs : List Char) : Nat :=
  match (cs.takeWhile (· = '/')).length with
  | 0 => 0
  | 2 => 2
  | _ => 1

def isKept (segment : List Char) : Bool := segment ≠ [] && segment ≠ ['.']

def ofChars (cs : List Char) : FilePath :=
  ⟨rootSlashes cs, (splitAt '/' cs).filter isKept⟩

def ofText (s : String) : FilePath := ofChars s.toList

def join : List (List Char) → List Char
  | [] => []
  | [s] => s
  | s :: rest => s ++ '/' :: join rest

def chars (p : FilePath) : List Char :=
  if p.slashes = 0 && p.segments.isEmpty then ['.']
  else List.replicate p.slashes '/' ++ join p.segments

def text (p : FilePath) : String := String.ofList p.chars

def isAbsolute (p : FilePath) : Bool := p.slashes ≠ 0

/-- The last segment, or nothing. -/
def name (p : FilePath) : String := String.ofList (p.segments.getLast?.getD [])

/-- The path of `name` below `p`. -/
def child (p : FilePath) (name : String) : FilePath :=
  { p with segments := p.segments ++ [name.toList] }

/-- The home directory of the user. -/
def home : FilePath := ofText "/home/tester"

/-- A tilde alone in front stands for the home directory; no other user is known. -/
def expandHome (p : FilePath) : Except Failure FilePath :=
  match p.slashes, p.segments with
  | 0, ('~' :: user) :: rest =>
    if user.isEmpty then .ok { home with segments := home.segments ++ rest }
    else .error .unknownUser
  | _, _ => .ok p

/-- Segments with each double dot taking back the one before it. -/
def climb (segments : List (List Char)) : List (List Char) :=
  (segments.foldl (fun done s => if s = ['.', '.'] then done.tail else s :: done) []).reverse

/-- A relative path is taken from the root of the file system, its double dots resolved. -/
def absolute (p : FilePath) : FilePath :=
  if p.isAbsolute then p else ⟨1, climb p.segments⟩

theorem splitAt_ne_nil (sep : Char) (cs : List Char) : splitAt sep cs ≠ [] := by
  cases cs with
  | nil => simp [splitAt]
  | cons c rest =>
    simp only [splitAt]
    split
    · simp
    · split <;> simp

theorem isAbsolute_absolute (p : FilePath) : p.absolute.isAbsolute = true := by
  unfold absolute
  split
  · assumption
  · rfl

theorem climb_nil : climb [] = [] := rfl

end FilePath
end LanguageClient
