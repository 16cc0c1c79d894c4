import LanguageClient.Number.Shortest
import LanguageClient.Text.Quoted
import LanguageClient.Value.Basic

/-!
JSON text of a value, in ASCII only: a character without a shape there is written by a letter, or by
the numbers of its one or two sixteen-bit units.
-/

namespace LanguageClient.Json

/-- What stands between items and between a name and its value. -/
structure Style where
  item : List Char
  name : List Char

/-- Without blanks, as messages are sent. -/
def compact : Style := ⟨[','], [':']⟩

/-- With blanks, as texts are shown. -/
def spaced : Style := ⟨[',', ' '], [':', ' ']⟩

def unitText (n : Nat) : List Char := '\\' :: 'u' :: Text.hexPadded 4 n

def charText (c : Char) : List Char :=
  let n := c.toNat
  if c = '"' then ['\\', '"']
  else if c = '\\' then ['\\', '\\']
  else if c = '\n' then ['\\', 'n']
  else if c = '\r' then ['\\', 'r']
  else if c = '\t' then ['\\', 't']
  else if n = 0x8 then ['\\', 'b']
  else if n = 0xc then ['\\', 'f']
  else if 0x20 ≤ n && n < 0x7f then [c]
  else if n < 0x10000 then unitText n
  else unitText (0xd800 + (n - 0x10000) / 0x400) ++ unitText (0xdc00 + (n - 0x10000) % 0x400)

def stringText (s : String) : List Char :=
  '"' :: s.toList.flatMap charText ++ ['"']

def intText (n : Int) : List Char :=
  (if n < 0 then ['-'] else []) ++ Nat.toDigits 10 n.natAbs

def floatText (x : Binary64) : List Char :=
  (x.textWith ⟨"NaN", "Infinity"⟩).toList

def boolText : Bool → List Char
  | true => ['t', 'r', 'u', 'e']
  | false => ['f', 'a', 'l', 's', 'e']

def nullText : List Char := ['n', 'u', 'l', 'l']

/-- A name is always a string; a key that is none is written as the string of its text. -/
def keyText : Key → List Char
  | .text s => stringText s
  | .null => '"' :: nullText ++ ['"']
  | .bool b => '"' :: boolText b ++ ['"']
  | .int n => '"' :: intText n ++ ['"']
  | .float x => '"' :: floatText x ++ ['"']

mutual

def print (style : Style) : Value → List Char
  | .null => nullText
  | .bool b => boolText b
  | .int n => intText n
  | .float x => floatText x
  | .text s => stringText s
  | .list items => '[' :: printItems style items ++ [']']
  | .map entries => '{' :: printEntries style entries ++ ['}']

def printItems (style : Style) : List Value → List Char
  | [] => []
  | [v] => print style v
  | v :: rest => print style v ++ style.item ++ printItems style rest

def printEntries (style : Style) : List (Key × Value) → List Char
  | [] => []
  | [e] => printEntry style e
  | e :: rest => printEntry style e ++ style.item ++ printEntries style rest

def printEntry (style : Style) : Key × Value → List Char
  | (k, v) => keyText k ++ style.name ++ print style v

end

def render (style : Style) (v : Value) : String :=
  String.ofList (print style v)

end LanguageClient.Json
