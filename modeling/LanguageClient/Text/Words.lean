import LanguageClient.Failure

/-!
Words of a command line. Blanks part words; quotes of either kind keep blanks; a backslash takes
the next character as it is, except in single quotes, and in double quotes only a quote or another
backslash. A pair of quotes with nothing inside is a word.
-/

namespace LanguageClient.Text

inductive QuoteMode where
  | bare
  | single
  | double
deriving DecidableEq, Repr

/-- A word in progress, newest character first; `none` between words. -/
abbrev Word := Option (List Char)

def Word.push (w : Word) (c : Char) : Word := some (c :: w.getD [])

/-- The finished words and the one in progress. -/
def Word.finish (w : Word) (done : List String) : List String :=
  match w with
  | none => done
  | some cs => String.ofList cs.reverse :: done

def isWordBreak (c : Char) : Bool := c = ' ' || c = '\t' || c = '\r' || c = '\n'

/-- Reads on from a mode, a word in progress and the finished words, newest first. -/
def wordsFrom : QuoteMode → Word → List String → List Char → Except Failure (List String)
  | .bare, w, done, [] => .ok (w.finish done).reverse
  | .single, _, _, [] | .double, _, _, [] => .error .unclosedQuote
  | .bare, w, done, '\\' :: rest => match rest with
    | [] => .error .unfinishedEscape
    | c :: rest => wordsFrom .bare (w.push c) done rest
  | .double, w, done, '\\' :: rest => match rest with
    | [] => .error .unfinishedEscape
    | c :: rest =>
      if c = '\\' || c = '"' then wordsFrom .double (w.push c) done rest
      else wordsFrom .double ((w.push '\\').push c) done rest
  | .bare, w, done, c :: rest =>
    if isWordBreak c then wordsFrom .bare none (w.finish done) rest
    else if c = '\'' then wordsFrom .single (some (w.getD [])) done rest
    else if c = '"' then wordsFrom .double (some (w.getD [])) done rest
    else wordsFrom .bare (w.push c) done rest
  | .single, w, done, c :: rest =>
    if c = '\'' then wordsFrom .bare w done rest else wordsFrom .single (w.push c) done rest
  | .double, w, done, c :: rest =>
    if c = '"' then wordsFrom .bare w done rest else wordsFrom .double (w.push c) done rest

def words (s : String) : Except Failure (List String) :=
  wordsFrom .bare none [] s.toList

theorem words_empty : words "" = .ok [] := rfl

end LanguageClient.Text
