import LanguageClient.Yaml.Scalar

/-!
Tokens of a settings file. Indentation opens and closes collections, and a colon makes a key of what
stands before it on its line.
-/

namespace LanguageClient.Yaml

inductive Token where
  | directive (name : String) (arguments : String)
  | documentStart
  | documentEnd
  | blockSequence
  | blockMapping
  | blockEnd
  | flowSequence
  | flowSequenceEnd
  | flowMapping
  | flowMappingEnd
  | item
  | comma
  | key
  | value
  | alias (name : String)
  | anchor (name : String)
  | tag (name : String)
  | scalar (text : String) (isPlain : Bool)
deriving DecidableEq, Repr

/-- What may turn out to be a key once a colon follows. -/
structure Candidate where
  /-- Where the token that would come first stands. -/
  place : Nat
  /-- Nothing but a key may stand here. -/
  required : Bool
  line : Nat
  column : Nat
  index : Nat
deriving DecidableEq, Repr

structure Lexer where
  cursor : Cursor
  tokens : List Token
  indent : Int
  /-- The indentations around, the innermost first. -/
  outer : List Int
  /-- How many brackets are open. -/
  flow : Nat
  allowsKey : Bool
  /-- By the number of open brackets. -/
  candidates : List (Nat × Candidate)
deriving Repr

namespace Lexer

def ofChars (cs : List Char) : Lexer := ⟨.ofChars cs, [], -1, [], 0, true, []⟩

def add (t : Token) (l : Lexer) : Lexer := { l with tokens := l.tokens ++ [t] }

def inFlow (l : Lexer) : Bool := 0 < l.flow

/-- On to the next token, over blanks, comments and line breaks. -/
def toToken : (fuel : Nat) → Lexer → Lexer
  | 0, l => l
  | fuel + 1, l =>
    let (_, c) := l.cursor.span (· = ' ')
    let (_, c) := if c.head = '#' then c.span fun x => !isBreak x else ([], c)
    if isBreak c.head then
      toToken fuel { l with cursor := c.lineBreak.2, allowsKey := l.allowsKey || !l.inFlow }
    else { l with cursor := c }

/-- A candidate is over with its line, or a thousand characters on. -/
def isStale (k : Candidate) (l : Lexer) : Bool :=
  k.line ≠ l.cursor.line || 1024 < l.cursor.index - k.index

def dropStale (l : Lexer) : Option Lexer :=
  if l.candidates.any fun (_, k) => isStale k l && k.required then none
  else some { l with candidates := l.candidates.filter fun (_, k) => !isStale k l }

/-- Closes the collections that are indented further than a column. -/
def closeTo (column : Int) : (fuel : Nat) → Lexer → Lexer
  | 0, l => l
  | fuel + 1, l =>
    if l.inFlow || l.indent ≤ column then l
    else closeTo column fuel { l.add .blockEnd with
      indent := l.outer.headD (-1)
      outer := l.outer.drop 1 }

def unwind (column : Int) (l : Lexer) : Lexer := closeTo column (l.outer.length + 1) l

/-- The candidate at this depth is given up; one that had to be a key is an error. -/
def dropCandidate (l : Lexer) : Option Lexer :=
  if l.candidates.any fun (n, k) => n = l.flow && k.required then none
  else some { l with candidates := l.candidates.filter fun (n, _) => n ≠ l.flow }

/-- What comes next may be a key. -/
def noteCandidate (l : Lexer) : Option Lexer :=
  let c := l.cursor
  if !l.allowsKey then some l
  else l.dropCandidate.map fun l => { l with
    candidates := l.candidates ++
      [(l.flow, ⟨l.tokens.length, !l.inFlow && l.indent = c.column, c.line, c.column, c.index⟩)] }

/-- Whether a column is indented further than the lines around, which then become outer ones. -/
def deepen (column : Nat) (l : Lexer) : Bool × Lexer :=
  if l.indent < column then (true, { l with outer := l.indent :: l.outer, indent := column })
  else (false, l)

def skip (n : Nat) (l : Lexer) : Lexer := { l with cursor := l.cursor.skip n }

def allow (b : Bool) (l : Lexer) : Lexer := { l with allowsKey := b }

/-- A mark of `n` characters that is a token by itself. -/
def mark (t : Token) (n : Nat) (l : Lexer) : Lexer := (l.skip n).add t

def isNameChar (c : Char) : Bool := c.isAlphanum || c = '-' || c = '_'

def isTagChar (c : Char) : Bool :=
  c.isAlphanum || "-;/?:@&=+$,_.!~*'()[]%<>".toList.contains c

/-- A name after `*` or `&`. -/
def anchorName (l : Lexer) : Option (String × Lexer) :=
  let (name, c) := l.cursor.step.span isNameChar
  if name.isEmpty || !(isSpace c.head || "?:,]\x7d%@\x60".toList.contains c.head) then none
  else some (String.ofList name, { l with cursor := c })

def tagName (l : Lexer) : Option (String × Lexer) :=
  let (name, c) := l.cursor.step.span fun x => !isGap x
  if name.all isTagChar then some (String.ofList name, { l with cursor := c }) else none

/-- A directive up to the end of its line. -/
def directive (l : Lexer) : Option Lexer := do
  let l ← (l.unwind (-1)).dropCandidate
  let (name, c) := l.cursor.step.span isNameChar
  if name.isEmpty || !isGap c.head then none
  let (rest, c) := c.span fun x => !isBreak x
  let arguments := rest.takeWhile (· ≠ '#')
  return ({ l with cursor := c }.allow false).add
    (.directive (String.ofList name) (String.ofList arguments))

def documentMark (l : Lexer) : Option Lexer := do
  let l ← (l.unwind (-1)).dropCandidate
  let t : Token := if l.cursor.head = '-' then .documentStart else .documentEnd
  return (l.allow false).mark t 3

def openFlow (t : Token) (l : Lexer) : Option Lexer :=
  l.noteCandidate.map fun l => ({ l with flow := l.flow + 1 }.allow true).mark t 1

def closeFlow (t : Token) (l : Lexer) : Option Lexer :=
  if !l.inFlow then none
  else l.dropCandidate.map fun l => ({ l with flow := l.flow - 1 }.allow false).mark t 1

/-- Opens a block collection at the cursor, unless one is open there. -/
def openBlock (t : Token) (l : Lexer) : Option Lexer :=
  if l.inFlow then some l
  else if !l.allowsKey then none
  else match l.deepen l.cursor.column with
    | (true, l) => some (l.add t)
    | (false, l) => some l

def item (l : Lexer) : Option Lexer := do
  let l ← l.openBlock .blockSequence
  let l ← (l.allow true).dropCandidate
  return l.mark .item 1

def key (l : Lexer) : Option Lexer := do
  let l ← l.openBlock .blockMapping
  let l ← (l.allow !l.inFlow).dropCandidate
  return l.mark .key 1

/-- Makes a key of the candidate. -/
def keyed (k : Candidate) (l : Lexer) : Lexer :=
  let l := { l with
    tokens := l.tokens.insertIdx k.place .key
    candidates := l.candidates.filter fun (n, _) => n ≠ l.flow }
  let (opens, l) := if l.inFlow then (false, l) else l.deepen k.column
  (if opens then { l with tokens := l.tokens.insertIdx k.place .blockMapping } else l).allow false

def value (l : Lexer) : Option Lexer :=
  match l.candidates.find? fun (n, _) => n = l.flow with
  | some (_, k) => some ((l.keyed k).mark .value 1)
  | none => do
    let l ← l.openBlock .blockMapping
    let l ← (l.allow !l.inFlow).dropCandidate
    return l.mark .value 1

/-- A name, a tag or a scalar, which may be a key. -/
def word (read : Lexer → Option (Token × Lexer)) (l : Lexer) : Option Lexer := do
  let l ← l.noteCandidate
  let (t, l) ← read (l.allow false)
  return l.add t

def quoted (double : Bool) (l : Lexer) : Option (Token × Lexer) :=
  let c := l.cursor.step
  (Quoted.read double (c.rest.length + 1) [] c).map fun (text, c) =>
    (.scalar (String.ofList text) false, { l with cursor := c })

def plain (l : Lexer) : Option (Token × Lexer) :=
  let c := l.cursor
  let (text, broke, c) := Plain.read l.inFlow (l.indent + 1) (c.rest.length + 1) [] [] false c
  some (.scalar (String.ofList text) true, { l with cursor := c, allowsKey := broke })

def block (folds : Bool) (l : Lexer) : Option Lexer := do
  let l ← (l.allow true).dropCandidate
  let (text, c) ← Block.read folds l.indent l.cursor
  return { l with cursor := c }.add (.scalar (String.ofList text) false)

/-- Whether a plain scalar can start here. -/
def startsPlain (l : Lexer) : Bool :=
  let c := l.cursor.head
  let next := l.cursor.peek 1
  !(isSpace c || "-?:,[]\x7b\x7d#&*!|>'\"%@\x60".toList.contains c) ||
    (!isSpace next && (c = '-' || (!l.inFlow && (c = '?' || c = ':'))))

/-- Reads the token at the cursor. -/
def next (l : Lexer) : Option Lexer :=
  let c := l.cursor
  let x := c.head
  let starts := isSpace (c.peek 1)
  if c.column = 0 && x = '%' then l.directive
  else if c.column = 0 && c.atDocumentMark then l.documentMark
  else match x with
    | '[' => l.openFlow .flowSequence
    | '\x7b' => l.openFlow .flowMapping
    | ']' => l.closeFlow .flowSequenceEnd
    | '\x7d' => l.closeFlow .flowMappingEnd
    | ',' => ((l.allow true).dropCandidate).map fun l => l.mark .comma 1
    | '*' => l.word fun l => l.anchorName.map fun (name, l) => (.alias name, l)
    | '&' => l.word fun l => l.anchorName.map fun (name, l) => (.anchor name, l)
    | '!' => l.word fun l => l.tagName.map fun (name, l) => (.tag name, l)
    | '\'' => l.word (quoted false)
    | '"' => l.word (quoted true)
    | _ =>
      if x = '-' && starts then l.item
      else if x = '?' && (l.inFlow || starts) then l.key
      else if x = ':' && (l.inFlow || starts) then l.value
      else if (x = '|' || x = '>') && !l.inFlow then l.block (x = '>')
      else if l.startsPlain then l.word plain
      else none

/-- Reads tokens up to the end of the text. -/
def run : (fuel : Nat) → Lexer → Option (List Token)
  | 0, _ => none
  | fuel + 1, l => do
    let l := toToken (l.cursor.rest.length + 1) l
    let l ← l.dropStale
    if l.cursor.rest.isEmpty then
      let l ← (l.unwind (-1)).dropCandidate
      return l.tokens
    else run fuel (← (l.unwind l.cursor.column).next)

end Lexer

/-- The tokens of a text; `none` where it holds something that is no token. -/
def tokens? (cs : List Char) : Option (List Token) :=
  if !cs.all isPrintable then none
  else
    let l := Lexer.ofChars cs
    let l := if l.cursor.head = '\ufeff' then l.skip 1 else l
    Lexer.run (cs.length + 2) l

end LanguageClient.Yaml
