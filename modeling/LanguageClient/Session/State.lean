import LanguageClient.Text.Quoted

/-!
The four states of a session and the moves between them. A stopped session stays stopped.
-/

namespace LanguageClient

inductive SessionState where
  | unstarted
  | starting
  | ready
  | stopped
deriving DecidableEq, Repr, Inhabited

namespace SessionState

def name : SessionState → String
  | .unstarted => "unstarted"
  | .starting => "starting"
  | .ready => "ready"
  | .stopped => "stopped"

def ofName? (s : String) : Option SessionState :=
  [unstarted, starting, ready, stopped].find? fun state => state.name = s

/-- The states that may come next, by name. -/
def next : SessionState → List SessionState
  | .unstarted => [.starting, .stopped]
  | .starting => [.ready, .stopped]
  | .ready => [.stopped]
  | .stopped => []

/-- Before it is ready a session keeps what it is asked to send. -/
def buffers : SessionState → Bool
  | .unstarted | .starting => true
  | .ready | .stopped => false

theorem next_stopped : next .stopped = [] := rfl

theorem stopped_mem_next {s : SessionState} (h : s ≠ .stopped) : .stopped ∈ s.next := by
  cases s <;> simp_all [next]

theorem not_mem_next_self (s : SessionState) : s ∉ s.next := by
  cases s <;> decide

theorem ofName?_name (s : SessionState) : ofName? s.name = some s := by
  cases s <;> decide

end SessionState
end LanguageClient
