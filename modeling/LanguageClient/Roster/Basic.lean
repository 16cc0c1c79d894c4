import LanguageClient.Launch
import LanguageClient.Session.Basic

/-!
The roster: which session serves which root. There is one session for a key at a time.
-/

namespace LanguageClient

open Schedule

namespace Roster

/-- What happens when a session has become ready. -/
inductive Hook where
  | none
  | fail
  /-- A relay is started for it. -/
  | relay
deriving DecidableEq, Repr, Inhabited

/-- How the command of a backend is made. -/
inductive Launcher where
  /-- A stand-in that is told its parameters and its port. -/
  | stub
  | directory (dir : FilePath) (disk : Launch.Disk)
deriving DecidableEq, Repr, Inhabited

/-- The places from which calls of the roster go on. -/
inductive Stage where
  | ensure (root : Option Root)
  | sessionStarted (key : String) (s : SessionId)
  | stop (root : Option Root)
  | stopAll (timeout : Timeout)
  | stopsOver (stops : List (TaskId × SessionId)) (timer : Option TimerId)
  | notify (root : Option Root) (method : String) (params : Value)
deriving Repr

end Roster

structure Roster where
  /-- Each key once. -/
  sessions : List (String × SessionId)
  lastStarted : Option String
  hook : Roster.Hook
  launcher : Roster.Launcher
deriving Repr, Inhabited

namespace Roster

def ofLauncher (launcher : Launcher) : Roster := ⟨[], none, .relay, launcher⟩

def find? (key : String) (r : Roster) : Option SessionId :=
  (r.sessions.find? fun e => e.1 = key).map (·.2)

def remove (key : String) (r : Roster) : Roster :=
  { r with sessions := r.sessions.filter fun e => e.1 ≠ key }

def insert (key : String) (s : SessionId) (r : Roster) : Roster :=
  { r.remove key with sessions := (r.remove key).sessions ++ [(key, s)] }

/-- A key that is not the last one started any more. -/
def forgetLast (key : String) (r : Roster) : Roster :=
  if r.lastStarted = some key then { r with lastStarted := none } else r

/-- Removes a session that has gone by itself, unless another one has taken its place. -/
def drop (key : String) (s : SessionId) (r : Roster) : Roster :=
  if r.find? key = some s then (r.remove key).forgetLast key else r

/-- The command of a backend and the launcher afterwards. -/
def Launcher.command (settings : RootSettings) (l : Launcher) :
    Launcher × Except Failure (List String) :=
  match l with
  | .stub =>
    (l, .ok ["backend", settings.parameters.display, settings.debuggerPort.display])
  | .directory dir disk =>
    let (disk, command) := Launch.backendCommand dir settings Launch.hostPlatform disk
    (.directory dir disk, command)

theorem find?_remove (key : String) (r : Roster) : (r.remove key).find? key = none := by
  simp [remove, find?]

theorem find?_insert (key : String) (s : SessionId) (r : Roster) :
    (r.insert key s).find? key = some s := by
  have absent : (r.sessions.filter fun e => e.1 ≠ key).find? (fun e => e.1 = key) = none :=
    List.find?_eq_none.2 fun e he => by simpa using (List.mem_filter.1 he).2
  simp only [insert, remove, find?, List.find?_append, absent]
  simp

theorem find?_remove_ne {key key' : String} (h : key ≠ key') (r : Roster) :
    (r.remove key).find? key' = r.find? key' := by
  simp only [remove, find?, List.find?_filter]
  congr 2
  funext e
  by_cases he : e.1 = key' <;> simp [he, Ne.symm h]

theorem find?_insert_ne {key key' : String} (h : key ≠ key') (s : SessionId) (r : Roster) :
    (r.insert key s).find? key' = r.find? key' := by
  rw [← find?_remove_ne h r]
  simp [insert, find?, h]

end Roster
end LanguageClient
