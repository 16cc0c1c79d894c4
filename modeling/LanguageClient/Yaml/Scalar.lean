import LanguageClient.Text.Digit
import LanguageClient.Yaml.Cursor

/-!
Scalars as they are written: plain, in quotes, or in a block of lines. Lines are joined by blanks;
empty lines between them stay as breaks.
-/

namespace LanguageClient.Yaml

/-- Text read so far, and the place after it. -/
abbrev Piece := List Char × Cursor

/-- What a break between lines adds, with the breaks of the empty lines after it. -/
def folded (line : List Char) (empties : List Char) : List Char :=
  if line ≠ ['\n'] then line ++ empties
  else if empties.isEmpty then [' ']
  else empties

/-- Breaks of lines that hold nothing but blanks; `none` at a mark that parts documents. -/
def emptyLines (isIndent : Char → Bool) : (fuel : Nat) → List Char → Cursor → Option Piece
  | 0, done, c => some (done, c)
  | fuel + 1, done, c =>
    if c.atDocumentMark then none
    else
      let (_, c) := c.span isIndent
      if isBreak c.head then
        let (line, c) := c.lineBreak
        emptyLines isIndent fuel (done ++ line) c
      else some (done, c)

namespace Plain

/-- Whether a plain scalar ends before the character at a place. -/
def isEnd (inFlow : Bool) (c : Char) (next : Char) : Bool :=
  isSpace c || (c = ':' && (isSpace next || (inFlow && [',', '[', ']', '{', '}'].contains next))) ||
    (inFlow && [',', '?', '[', ']', '{', '}'].contains c)

/-- The part of a line that belongs to a plain scalar. -/
def run (inFlow : Bool) : List Char → List Char
  | [] => []
  | c :: rest => if isEnd inFlow c (rest.headD stop) then [] else c :: run inFlow rest

/-- What parts two runs, whether a line break was among it, and the place after it. Nothing parts
them where the scalar is over. -/
def gap (c : Cursor) : Option (List Char) × Bool × Cursor :=
  let (blanks, c) := c.span (· = ' ')
  if isBreak c.head then
    let (line, c) := c.lineBreak
    match emptyLines (· = ' ') (c.rest.length + 1) [] c with
    | none => (none, true, c)
    | some (empties, c) => (some (folded line empties), true, c)
  else (if blanks.isEmpty then none else some blanks, false, c)

/-- Reads on; the flag tells whether the last thing read was a line break. -/
def read (inFlow : Bool) (indent : Int) : (fuel : Nat) → (done between : List Char) →
    (broke : Bool) → Cursor → List Char × Bool × Cursor
  | 0, done, _, broke, c => (done, broke, c)
  | fuel + 1, done, between, broke, c =>
    if c.head = '#' then (done, broke, c)
    else
      let part := run inFlow c.rest
      if part.isEmpty then (done, broke, c)
      else
        let done := done ++ between ++ part
        match gap (c.skip part.length) with
        | (none, broke, c) => (done, broke, c)
        | (some between, broke, c) =>
          if c.head = '#' || (!inFlow && c.column < indent) then (done, broke, c)
          else read inFlow indent fuel done between broke c

end Plain

namespace Quoted

/-- What a letter after a backslash stands for. -/
def escape? : Char → Option Char
  | '0' => some '\x00'
  | 'a' => some '\x07'
  | 'b' => some '\x08'
  | 't' | '\t' => some '\t'
  | 'n' => some '\n'
  | 'v' => some '\x0b'
  | 'f' => some '\x0c'
  | 'r' => some '\r'
  | 'e' => some '\x1b'
  | ' ' => some ' '
  | '"' => some '"'
  | '\\' => some '\\'
  | '/' => some '/'
  | 'N' => some '\x85'
  | '_' => some '\u00a0'
  | 'L' => some '\u2028'
  | 'P' => some '\u2029'
  | _ => none

/-- How many digits follow a letter that stands for a character by its number. -/
def codeLength? : Char → Option Nat
  | 'x' => some 2
  | 'u' => some 4
  | 'U' => some 8
  | _ => none

def hexValue? (c : Char) : Option Nat :=
  if '0' ≤ c && c ≤ '9' then some (c.toNat - 0x30)
  else if 'a' ≤ c && c ≤ 'f' then some (c.toNat - 0x57)
  else if 'A' ≤ c && c ≤ 'F' then some (c.toNat - 0x37)
  else none

def hexNumber? (n : Nat) (cs : List Char) : Option Nat :=
  let ds := cs.take n
  if ds.length < n then none
  else (ds.mapM hexValue?).map fun ds => ds.foldl (fun x d => 16 * x + d) 0

/-- Blanks and tabs, or the line breaks among them. -/
def gap (c : Cursor) : Option Piece :=
  let (blanks, c) := c.span fun x => x = ' ' || x = '\t'
  if c.head = stop then none
  else if isBreak c.head then
    let (line, c) := c.lineBreak
    (emptyLines (fun x => x = ' ' || x = '\t') (c.rest.length + 1) [] c).map fun (empties, c) =>
      (folded line empties, c)
  else some (blanks, c)

/-- What a backslash and the characters after it add. -/
def escaped (c : Cursor) : Option Piece :=
  match escape? c.head, codeLength? c.head with
  | some x, _ => some ([x], c.step)
  | none, some n =>
    (hexNumber? n (c.rest.drop 1)).map fun code => ([Char.ofNat code], c.skip (n + 1))
  | none, none =>
    if isBreak c.head then
      let (_, c) := c.lineBreak
      emptyLines (fun x => x = ' ' || x = '\t') (c.rest.length + 1) [] c
    else none

/-- Reads up to the closing quote. -/
def read (double : Bool) : (fuel : Nat) → (done : List Char) → Cursor → Option Piece
  | 0, _, _ => none
  | fuel + 1, done, c =>
    let x := c.head
    if x = stop then none
    else if isSpace x then
      (gap c).bind fun (part, c) => read double fuel (done ++ part) c
    else if double then
      if x = '"' then some (done, c.step)
      else if x = '\\' then (escaped c.step).bind fun (part, c) => read double fuel (done ++ part) c
      else read double fuel (done ++ [x]) c.step
    else if x = '\'' then
      if c.peek 1 = '\'' then read double fuel (done ++ ['\'']) (c.skip 2)
      else some (done, c.step)
    else read double fuel (done ++ [x]) c.step

end Quoted

namespace Block

/-- What becomes of the breaks at the end of a block. -/
inductive Chomping where
  | strip
  | clip
  | keep
deriving DecidableEq, Repr

def chomping? : Char → Option Chomping
  | '+' => some .keep
  | '-' => some .strip
  | _ => none

/-- A digit that gives the indentation; zero gives none. -/
def increment? (c : Char) : Option (Option Nat) :=
  if c = '0' then none
  else if '1' ≤ c && c ≤ '9' then some (some (c.toNat - 0x30))
  else some none

/-- The marks after the one that opens a block, in either order. -/
def marks (c : Cursor) : Option (Chomping × Option Nat × Cursor) := do
  let (how, n, c) ← match chomping? c.head with
    | some how =>
      let c := c.step
      match ← increment? c.head with
      | some n => some (how, some n, c.step)
      | none => some (how, none, c)
    | none => match ← increment? c.head with
      | some n =>
        let c := c.step
        match chomping? c.head with
        | some how => some (how, some n, c.step)
        | none => some (Chomping.clip, some n, c)
      | none => some (Chomping.clip, none, c)
  if isGap c.head then some (how, n, c) else none

/-- The rest of the line with the marks, where only a comment may stand. -/
def endOfMarks (c : Cursor) : Option Cursor :=
  let (_, c) := c.span (· = ' ')
  let (_, c) := if c.head = '#' then c.span fun x => !isBreak x else ([], c)
  if c.head = stop || isBreak c.head then some c.lineBreak.2 else none

/-- Lines without text at the start, and the widest indentation among them. -/
def leading : (fuel : Nat) → (done : List Char) → (widest : Nat) → Cursor → List Char × Nat × Cursor
  | 0, done, widest, c => (done, widest, c)
  | fuel + 1, done, widest, c =>
    if c.head = ' ' then leading fuel done (max widest c.step.column) c.step
    else if isBreak c.head then
      let (line, c) := c.lineBreak
      leading fuel (done ++ line) widest c
    else (done, widest, c)

/-- Blanks up to a column, at most. -/
def toColumn (column : Nat) (c : Cursor) : Cursor :=
  let blanks := (c.rest.takeWhile (· = ' ')).length
  c.skip (min blanks (column - c.column))

def breaks (column : Nat) : (fuel : Nat) → (done : List Char) → Cursor → Piece
  | 0, done, c => (done, c)
  | fuel + 1, done, c =>
    let c := toColumn column c
    if isBreak c.head then
      let (line, c) := c.lineBreak
      breaks column fuel (done ++ line) c
    else (done, c)

/-- Lines with text, from the one at the cursor on; `empties` are the breaks before it. The result
holds the break after the last line and those of the lines after that. -/
def lines (folds : Bool) (column : Nat) : (fuel : Nat) → (done empties : List Char) → Cursor →
    List Char × List Char × List Char × Cursor
  | 0, done, empties, c => (done, [], empties, c)
  | fuel + 1, done, empties, c =>
    if c.column ≠ column || c.head = stop then (done, [], empties, c)
    else
      let isText := !(c.head = ' ' || c.head = '\t')
      let (text, c) := c.span fun x => !isBreak x
      let done := done ++ empties ++ text
      let (line, c) := c.lineBreak
      let (empties, c) := breaks column (c.rest.length + 1) [] c
      if c.column = column && c.head ≠ stop then
        let joins := folds && line = ['\n'] && isText && !(c.head = ' ' || c.head = '\t')
        let between := if !joins then line else if empties.isEmpty then [' '] else []
        lines folds column fuel (done ++ between) empties c
      else (done, line, empties, c)

/-- Reads a block, from the mark that opens it on; `indent` is that of the lines around it. -/
def read (folds : Bool) (indent : Int) (c : Cursor) : Option Piece := do
  let (how, increment, c) ← marks c.step
  let c ← endOfMarks c
  let least := (max (indent + 1) 1).toNat
  let fuel := c.rest.length + 1
  let (column, empties, c) := match increment with
    | some n =>
      let column := least + n - 1
      let (empties, c) := breaks column fuel [] c
      (column, empties, c)
    | none =>
      let (empties, widest, c) := leading fuel [] 0 c
      (max least widest, empties, c)
  let (text, line, empties, c) := lines folds column fuel [] empties c
  some (match how with
    | .strip => text
    | .clip => text ++ line
    | .keep => text ++ line ++ empties, c)

end Block
end LanguageClient.Yaml
