import LanguageClient.Json.Printer
import LanguageClient.Event.Basic
import LanguageClient.Value.Display

/-!
The editor's shell on a console: styled lines, and the text printed for them.
-/

namespace LanguageClient

/-- One item of the status bar, owned by a session. -/
structure StatusIndicator where
  text : Value
  tooltip : Value
  visible : Value
  command : Value
deriving DecidableEq, Repr, Inhabited

namespace StatusIndicator

def standard : StatusIndicator :=
  ⟨.text "Roblox LSP", .text "", .bool false, .text ""⟩

end StatusIndicator

namespace Console

/-- Text with styles, each from a position to another one. -/
structure Styled where
  chars : List Char
  spans : List (Nat × Nat × String)
deriving DecidableEq, Repr

def Styled.empty : Styled := ⟨[], []⟩

/-- Controls that would move the cursor are left out. -/
def isKept (c : Char) : Bool :=
  let n := c.toNat
  !(n = 7 || n = 8 || n = 11 || n = 12 || n = 13)

def Styled.append (s : Styled) (text : String) (style : String) : Styled :=
  let kept := text.toList.filter isKept
  let start := s.chars.length
  ⟨s.chars ++ kept,
    if kept.isEmpty || style.isEmpty then s.spans
    else s.spans ++ [(start, start + kept.length, style)]⟩

/-- Only a text can be shown. -/
def Styled.appendValue? (s : Styled) (v : Value) (style : String) : Option Styled :=
  match v with
  | .text t => some (s.append t style)
  | _ => none

/-- The status bar item; `none` if its text or its tooltip is no text. -/
def status? (i : StatusIndicator) : Option Styled := do
  let bar := Styled.empty.append " ● " (if i.visible.truthy then "green" else "dim")
  let bar ← bar.appendValue? i.text "bold"
  if i.tooltip.truthy then (bar.append " │ " "dim").appendValue? i.tooltip "dim"
  else some bar

/-- How many columns a character takes. -/
def columns (c : Char) : Nat :=
  let n := c.toNat
  if 0x300 ≤ n && n ≤ 0x36f || n = 0x200b || n = 0x200d || 0xfe00 ≤ n && n ≤ 0xfe0f then 0
  else if 0x1100 ≤ n && n ≤ 0x115f || 0x2e80 ≤ n && n ≤ 0xa4cf || 0xac00 ≤ n && n ≤ 0xd7a3 ||
      0xf900 ≤ n && n ≤ 0xfaff || 0xfe30 ≤ n && n ≤ 0xfe6f || 0xff00 ≤ n && n ≤ 0xff60 ||
      0xffe0 ≤ n && n ≤ 0xffe6 || 0x1f300 ≤ n && n ≤ 0x1f64f || 0x1f900 ≤ n && n ≤ 0x1f9ff ||
      0x20000 ≤ n && n ≤ 0x3fffd then 2
  else 1

/-- A tab goes on to the next multiple of eight columns; lines start anew. -/
def expandTabs : (column : Nat) → List Char → List Char
  | _, [] => []
  | column, c :: rest =>
    if c = '\n' then c :: expandTabs 0 rest
    else if c = '\t' then
      let width := 8 - column % 8
      List.replicate width ' ' ++ expandTabs (column + width) rest
    else c :: expandTabs (column + columns c) rest

/-- What printing a line writes. -/
def Styled.printed (s : Styled) : String :=
  String.ofList (expandTabs 0 s.chars ++ ['\n'])

def errorLine (message : String) : Styled :=
  Styled.empty.append message "red bold"

/-- A command and at most two hundred characters of its data. -/
def commandLine? (name data : Value) : Option Styled := do
  let line ← (Styled.empty.append "command " "cyan").appendValue? name "bold"
  if data = .null then some line
  else
    let shown := (Json.print Json.spaced data).take 200
    some ((line.append " " "").append (String.ofList shown) "dim")

/-- An indicator is printed while it is visible. -/
def updateStatus? (i : StatusIndicator) : Option String :=
  if i.visible.truthy then (status? i).map Styled.printed else some ""

theorem updateStatus?_hidden {i : StatusIndicator} (h : i.visible.truthy = false) :
    updateStatus? i = some "" := by
  simp [updateStatus?, h]

end Console
end LanguageClient
