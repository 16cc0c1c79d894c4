/-!
A place in a text, and the classes of characters that a settings file is read by.
-/

namespace LanguageClient.Yaml

def isBreak (c : Char) : Bool :=
  c = '\n' || c = '\r' || c = '\x85' || c = '\u2028' || c = '\u2029'

/-- What stands for the character after the last one. -/
def stop : Char := '\x00'

/-- A blank, a tab, a line break, or the end of the text. -/
def isSpace (c : Char) : Bool := c = stop || c = ' ' || c = '\t' || isBreak c

/-- A blank, a line break, or the end of the text. -/
def isGap (c : Char) : Bool := c = stop || c = ' ' || isBreak c

/-- Characters that a text may hold at all. -/
def isPrintable (c : Char) : Bool :=
  let n := c.toNat
  n = 9 || n = 10 || n = 13 || (0x20 ≤ n && n ≤ 0x7e) || n = 0x85 || (0xa0 ≤ n && n ≤ 0xd7ff) ||
    (0xe000 ≤ n && n ≤ 0xfffd) || 0x10000 ≤ n

structure Cursor where
  rest : List Char
  line : Nat
  column : Nat
  index : Nat
deriving DecidableEq, Repr

namespace Cursor

def ofChars (cs : List Char) : Cursor := ⟨cs, 0, 0, 0⟩

/-- The character so many places ahead. -/
def peek (n : Nat) (c : Cursor) : Char := c.rest.getD n stop

def head (c : Cursor) : Char := c.peek 0

/-- Past one character. A byte order mark takes no column. -/
def step (c : Cursor) : Cursor :=
  match c.rest with
  | [] => c
  | x :: rest =>
    if isBreak x && !(x = '\r' && rest.head? = some '\n') then ⟨rest, c.line + 1, 0, c.index + 1⟩
    else ⟨rest, c.line, if x = '\ufeff' then c.column else c.column + 1, c.index + 1⟩

def skip : (n : Nat) → Cursor → Cursor
  | 0, c => c
  | n + 1, c => skip n c.step

/-- The longest part ahead whose characters satisfy `p`, and the place after it. -/
def span (p : Char → Bool) (c : Cursor) : List Char × Cursor :=
  let part := c.rest.takeWhile p
  (part, c.skip part.length)

/-- A line break as it is kept, and the place after it. -/
def lineBreak (c : Cursor) : List Char × Cursor :=
  match c.rest with
  | '\r' :: '\n' :: _ => (['\n'], c.skip 2)
  | x :: _ =>
    if x = '\u2028' || x = '\u2029' then ([x], c.step)
    else if isBreak x then (['\n'], c.step)
    else ([], c)
  | [] => ([], c)

/-- Three marks of a kind, alone on their own, as they part documents. -/
def atDocumentMark (c : Cursor) : Bool :=
  let three := c.rest.take 3
  (three = ['-', '-', '-'] || three = ['.', '.', '.']) && isSpace (c.peek 3)

theorem rest_step (c : Cursor) : c.step.rest = c.rest.drop 1 := by
  unfold step
  split
  · simp_all
  · split <;> simp_all

theorem rest_skip (n : Nat) (c : Cursor) : (c.skip n).rest = c.rest.drop n := by
  induction n generalizing c with
  | zero => rfl
  | succ n ih => simp [skip, ih, rest_step]

theorem span_append (p : Char → Bool) (c : Cursor) :
    (c.span p).1 ++ (c.span p).2.rest = c.rest := by
  simp only [span, rest_skip]
  induction c.rest with
  | nil => rfl
  | cons x xs ih => by_cases h : p x <;> simp [h, ih]

end Cursor
end LanguageClient.Yaml
