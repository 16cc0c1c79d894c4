import LanguageClient.Session.Basic
import LanguageClient.Settings.Basic
import LanguageClient.Shell.Basic

/-!
A relay: it applies the events of one session to the shell, and tells the session's backend what is
visible.
-/

namespace LanguageClient

open Schedule

/-- A pane of the editor that shows a document. -/
structure View where
  uri : String
  lineCount : Int
  ranges : List Range
  language : String
deriving DecidableEq, Repr, Inhabited

/-- Views by the documents they show. -/
abbrev Views := List (String × View)

namespace Views

def put (v : View) : Views → Views
  | [] => [(v.uri, v)]
  | e :: rest => if e.1 = v.uri then (v.uri, v) :: rest else e :: put v rest

def forget (uri : String) (views : Views) : Views := views.filter fun e => e.1 ≠ uri

def shows (uri : String) (views : Views) : Bool := views.any fun e => e.1 = uri

theorem shows_put (uri : String) (v : View) (views : Views) :
    shows uri (put v views) = (decide (v.uri = uri) || shows uri views) := by
  induction views with
  | nil => simp [put, shows]
  | cons e rest ih =>
    by_cases h : e.1 = v.uri
    · simp [put, shows, h]
    · simp only [shows] at ih
      simp only [put, h, if_false, shows, List.any_cons, ih]
      simp only [Bool.or_left_comm]

theorem shows_forget (uri uri' : String) (views : Views) :
    shows uri (forget uri' views) = (decide (uri' ≠ uri) && shows uri views) := by
  simp only [shows, forget, List.any_filter]
  by_cases h : uri' = uri
  · subst h
    simp
  · simp only [ne_eq, h, not_false_eq_true, decide_true, Bool.true_and]
    congr 1
    funext e
    by_cases he : e.1 = uri
    · simp [he, Ne.symm h]
    · simp [he]

end Views

namespace Relay

/-- A command that is not left to the shell. -/
inductive LocalCommand where
  /-- Changes the settings. -/
  | configure
  | fail
  /-- Keeps a record. -/
  | record (name : String)
  /-- Keeps a record once the other tasks have had their turn. -/
  | recordLater (name : String)
  /-- Keeps a record, and takes as long and fails as often as the shell likes. -/
  | arbitrary (name : String)
deriving DecidableEq, Repr, Inhabited

/-- The places from which calls of a relay go on. -/
inductive Stage where
  | dispatch (e : Event)
  /-- Lets the other tasks go on so many times more. -/
  | dispatchLater (e : Event) (span : Nat)
  | close
  | closed
  | report (v : View)
  | reported (ranges : List Range)
  | click
  | clicked
deriving Repr

end Relay

structure Relay where
  session : SessionId
  indicator : StatusIndicator
  commands : List (String × Relay.LocalCommand)
  views : Views
  task : Option TaskId
deriving Repr, Inhabited

namespace Relay

def make (session : SessionId) (commands : List (String × LocalCommand)) (statusCommand : String) :
    Relay where
  session := session
  indicator := { StatusIndicator.standard with command := .text statusCommand }
  commands := commands
  views := []
  task := none

/-- A hint of the backend. -/
def hint (edit : Entries) : Except Failure Decoration := do
  let text := ((Entries.field? "newText" edit).getD (.text "")).display
  let place := (Entries.field? "range" edit).getD .null
  let range ← Range.ofValue (if place.truthy then place else .map [])
  return ⟨range, some text⟩

def comment (place : Entries) : Except Failure Decoration :=
  (Range.ofValue (.map place)).map fun range => ⟨range, none⟩

/-- Items that are mappings; only a sequence has items. -/
def mappings (items : Value) : Except Failure (List Entries) :=
  match items with
  | .list xs => .ok (xs.filterMap fun
    | .map entries => some entries
    | _ => none)
  | .text _ | .map _ => .ok []
  | v => .error (.notIterable v.kind)

/-- Whether a view shows what an event calls a document. -/
def isShown (uri : Value) (views : Views) : Except Failure Bool :=
  match uri.key? with
  | none => .error (.unhashable uri.kind)
  | some (.text s) => .ok (Views.shows s views)
  | some _ => .ok false

end Relay
end LanguageClient
