import LanguageClient.Range
import LanguageClient.Shell.Console

/-!
The editor's shell: it runs commands, shows errors and the status, and decorates documents.
-/

namespace LanguageClient

/-- Something shown at a range of a document. -/
structure Decoration where
  range : Range
  text : Option String
deriving DecidableEq, Repr, Inhabited

namespace Shell

/-- What a shell does with what it is told. -/
inductive Kind where
  /-- Prints it. -/
  | console
  /-- Keeps it; commands of some names fail, and some take their time. -/
  | recorder (failing slow : List String)
  /-- Keeps it, and does as it likes: how often the commands to come let the other tasks go on before
  they are run, and what the calls to come fail with. -/
  | arbitrary (spans : List Nat) (failures : List (Option String))
deriving DecidableEq, Repr, Inhabited

inductive Entry where
  | command (name data : Value)
  | error (message : String)
  | status (indicator : StatusIndicator)
  | decorations (uri : Value) (kind : String) (items : List Decoration)
  | printed (text : String)
deriving DecidableEq, Repr, Inhabited

end Shell

structure Shell where
  kind : Shell.Kind
  log : List Shell.Entry
deriving DecidableEq, Repr, Inhabited

namespace Shell

def note (e : Entry) (s : Shell) : Shell := { s with log := s.log ++ [e] }

/-- How often the next command lets the other tasks go on, as far as that is up to the shell. -/
def nextSpan (s : Shell) : Nat × Shell :=
  match s.kind with
  | .arbitrary (n :: spans) failures => (n, { s with kind := .arbitrary spans failures })
  | _ => (0, s)

/-- What the next call comes to, as far as that is up to the shell. -/
def nextOutcome (s : Shell) : Except Failure Unit × Shell :=
  match s.kind with
  | .arbitrary spans (failure :: failures) =>
    (match failure with
      | some text => .error (.refused text)
      | none => .ok (), { s with kind := .arbitrary spans failures })
  | _ => (.ok (), s)

/-- How often a command lets the other tasks go on before it is run. -/
def spanOf (name : Value) (s : Shell) : Nat × Shell :=
  match s.kind, name with
  | .recorder _ slow, .text t => (if slow.contains t then 1 else 0, s)
  | _, _ => s.nextSpan

def showError (message : String) (s : Shell) : Shell :=
  match s.kind with
  | .recorder .. | .arbitrary .. => s.note (.error message)
  | .console => s.note (.printed (Console.errorLine message).printed)

def runCommand (name data : Value) (s : Shell) : Except Failure Unit × Shell :=
  match s.kind with
  | .recorder failing _ =>
    (match name with
      | .text t => if failing.contains t then .error (.unknownCommand t) else .ok ()
      | _ => .ok (), s.note (.command name data))
  | .arbitrary .. => (s.note (.command name data)).nextOutcome
  | .console => match Console.commandLine? name data with
    | some line => (.ok (), s.note (.printed line.printed))
    | none => (.error .notText, s)

def updateStatus (i : StatusIndicator) (s : Shell) : Except Failure Unit × Shell :=
  match s.kind with
  | .recorder .. | .arbitrary .. => (s.note (.status i)).nextOutcome
  | .console => match Console.updateStatus? i with
    | some text => (.ok (), if text.isEmpty then s else s.note (.printed text))
    | none => (.error .notText, s)

def setDecorations (uri : Value) (kind : String) (items : List Decoration) (s : Shell) :
    Except Failure Unit × Shell :=
  match s.kind with
  | .recorder .. | .arbitrary .. => (s.note (.decorations uri kind items)).nextOutcome
  | .console => (.ok (), s)

end Shell
end LanguageClient
