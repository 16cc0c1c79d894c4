import LanguageClient.Number.Reader
import LanguageClient.Text.Quoted

/-!
The command line of the client. A flag may be cut short as long as one flag alone starts that way,
and its value follows an equals sign or is the next word.
-/

namespace LanguageClient.CommandLine

inductive Flag where
  | help
  | root
  | serverDir
  | settings
  | port
  | verbose
deriving DecidableEq, Repr, Inhabited

namespace Flag

def name : Flag → String
  | .help => "--help"
  | .root => "--root"
  | .serverDir => "--server-dir"
  | .settings => "--settings"
  | .port => "--port"
  | .verbose => "--verbose"

/-- As a misuse of it is reported. -/
def label : Flag → String
  | .help => "-h/--help"
  | f => f.name

def all : List Flag := [.help, .root, .serverDir, .settings, .port, .verbose]

def startingWith (cs : List Char) : List Flag :=
  all.filter fun f => cs.isPrefixOf f.name.toList

theorem startingWith_name (f : Flag) : startingWith f.name.toList = [f] := by
  cases f <;> decide

end Flag

/-- Why a command line is refused. -/
inductive Misuse where
  | ambiguous (given : String) (flags : List Flag)
  | valueMissing (f : Flag)
  | valueUnused (f : Flag) (value : String)
  | notInteger (f : Flag) (value : String)
  /-- Words that mean nothing here. -/
  | unrecognized (words : List String)
deriving DecidableEq, Repr, Inhabited

def Misuse.message : Misuse → String
  | .ambiguous given flags =>
    "ambiguous option: " ++ given ++ " could match " ++
      String.intercalate ", " (flags.map Flag.name)
  | .valueMissing f => "argument " ++ f.label ++ ": expected one argument"
  | .valueUnused f value =>
    "argument " ++ f.label ++ ": ignored explicit argument " ++ Text.quoted value
  | .notInteger f value => "argument " ++ f.label ++ ": invalid int value: " ++ Text.quoted value
  | .unrecognized words => "unrecognized arguments: " ++ String.intercalate " " words

/-! ### Words -/

inductive Word where
  /-- Can be the value of a flag. -/
  | operand (text : String)
  | flag (f : Flag) (attached : Option String)
  /-- A single dash, the letter of the help flag, and what follows them. -/
  | letters (after : List Char)
  | ambiguous (text : String) (flags : List Flag)
  | stray (text : String)
deriving DecidableEq, Repr, Inhabited

def isDigit (c : Char) : Bool := (Text.digitValue? c).isSome

/-- Digits, or digits with a point before the last of them; a line feed may end the number. -/
def isUnsigned (cs : List Char) : Bool :=
  let cs := if cs.getLast? = some '\n' then cs.dropLast else cs
  match cs.dropWhile isDigit with
  | [] => !cs.isEmpty
  | '.' :: fraction => !fraction.isEmpty && fraction.all isDigit
  | _ => false

/-- A word with a blank in it is no flag. -/
def unmatched (text : String) : Word :=
  if text.contains ' ' then .operand text else .stray text

def longWord (text : String) : Word :=
  let (name, after) := text.toList.span (· ≠ '=')
  match Flag.startingWith name with
  | [] => unmatched text
  | [f] => .flag f (if after.isEmpty then none else some (String.ofList after.tail))
  | flags => .ambiguous text flags

def wordOf (text : String) : Word :=
  match text.toList with
  | '-' :: '-' :: _ => longWord text
  | '-' :: 'h' :: after => .letters after
  | '-' :: c :: rest => if isUnsigned (c :: rest) then .operand text else unmatched text
  | _ => .operand text

/-- Two dashes alone end the flags. -/
def wordsOf : List String → List Word
  | [] => []
  | text :: rest =>
    if text = "--" then .stray text :: rest.map .operand else wordOf text :: wordsOf rest

/-! ### Arguments -/

structure Arguments where
  roots : List String
  serverDir : Option String
  settings : Option String
  port : Option Int
  verbose : Bool
deriving DecidableEq, Repr, Inhabited

def Arguments.empty : Arguments := ⟨[], none, none, none, false⟩

/-- What a command line asks for. -/
inductive Request where
  | run (a : Arguments)
  | help
  | misuse (m : Misuse)
deriving DecidableEq, Repr, Inhabited

/-- An empty value is as good as none. -/
def given (value : String) : Option String := if value.isEmpty then none else some value

/-- The arguments with the value of one more flag. -/
def Arguments.give (f : Flag) (value : String) (a : Arguments) : Except Misuse Arguments :=
  match f with
  | .help | .verbose => .error (.valueUnused f value)
  | .root => .ok { a with roots := a.roots ++ [value] }
  | .serverDir => .ok { a with serverDir := given value }
  | .settings => .ok { a with settings := given value }
  | .port => match Number.readInt? value with
    | some n => .ok { a with port := some n }
    | none => .error (.notInteger f value)

/-- The letter may be repeated, and others after it are not looked at; a value it does not take. -/
def lettersRequest : List Char → Request
  | [] => .help
  | 'h' :: after => lettersRequest after
  | '=' :: value => .misuse (.valueUnused .help (String.ofList value))
  | '-' :: value => .misuse (.valueUnused .help (String.ofList ('-' :: value)))
  | _ => .help

/-- The first flag that asks for help or is misused decides; stray words count at the end. -/
def requestOf (a : Arguments) (strays : List String) : List Word → Request
  | [] => if strays.isEmpty then .run a else .misuse (.unrecognized strays)
  | .operand text :: rest | .stray text :: rest => requestOf a (strays ++ [text]) rest
  | .ambiguous text flags :: _ => .misuse (.ambiguous text flags)
  | .letters after :: _ => lettersRequest after
  | .flag .help none :: _ => .help
  | .flag .verbose none :: rest => requestOf { a with verbose := true } strays rest
  | .flag f (some value) :: rest => match a.give f value with
    | .ok a => requestOf a strays rest
    | .error m => .misuse m
  | .flag f none :: .operand value :: rest => match a.give f value with
    | .ok a => requestOf a strays rest
    | .error m => .misuse m
  | .flag f none :: _ => .misuse (.valueMissing f)

/-- Words that could mean several flags are refused before anything else is looked at. -/
def ambiguity? (words : List Word) : Option Misuse :=
  words.findSome? fun
    | .ambiguous text flags => some (.ambiguous text flags)
    | _ => none

def read (argv : List String) : Request :=
  let words := wordsOf argv
  match ambiguity? words with
  | some m => .misuse m
  | none => requestOf .empty [] words

def usage : String :=
  "usage: rbxlsp [-h] [--root PATH] [--server-dir PATH] [--settings PATH]\n" ++
  "              [--port PORT] [--verbose]\n"

def help : String :=
  usage ++
  "\nrbxlsp — run Roblox Lua language server sessions headlessly\n" ++
  "\noptions:\n" ++
  "  -h, --help         show this help message and exit\n" ++
  "  --root PATH        Workspace root folder (repeatable)\n" ++
  "  --server-dir PATH  Directory holding bin/<platform>/ and main.lua (overrides\n" ++
  "                     RBXLSP_SERVER_DIR)\n" ++
  "  --settings PATH    YAML workspace settings file\n" ++
  "  --port PORT        Bridge port (overrides robloxLsp.misc.serverPort;\n" ++
  "                     0=disabled)\n" ++
  "  --verbose          Log at debug level\n"

theorem read_nil : read [] = .run .empty := rfl

theorem requestOf_help (a : Arguments) (strays : List String) (rest : List Word) :
    requestOf a strays (.flag .help none :: rest) = .help := by
  simp [requestOf]

end LanguageClient.CommandLine
