import LanguageClient.Number.Shortest
import LanguageClient.Text.Quoted
import LanguageClient.Value.Basic

/-!
The text of a value as messages show it: a text at the top stands for itself, and inside a list or
a mapping it is quoted.
-/

namespace LanguageClient

def Key.nested : Key → String
  | .null => "None"
  | .bool true => "True"
  | .bool false => "False"
  | .int n => toString n
  | .float x => x.display
  | .text s => Text.quoted s

namespace Value

mutual

/-- The text of a value inside another one. -/
def nested : Value → String
  | .null => "None"
  | .bool true => "True"
  | .bool false => "False"
  | .int n => toString n
  | .float x => x.display
  | .text s => Text.quoted s
  | .list items => "[" ++ nestedItems items ++ "]"
  | .map entries => "\x7b" ++ nestedEntries entries ++ "\x7d"

def nestedItems : List Value → String
  | [] => ""
  | [v] => v.nested
  | v :: rest => v.nested ++ ", " ++ nestedItems rest

def nestedEntries : List (Key × Value) → String
  | [] => ""
  | [e] => nestedEntry e
  | e :: rest => nestedEntry e ++ ", " ++ nestedEntries rest

def nestedEntry : Key × Value → String
  | (k, v) => k.nested ++ ": " ++ v.nested

end

def display : Value → String
  | .text s => s
  | v => v.nested

theorem display_text (s : String) : (text s).display = s := rfl

end Value
end LanguageClient
