import LanguageClient.Proofs.Wire.Ending
import LanguageClient.Proofs.World.Connection
import LanguageClient.Proofs.World.Sound
import LanguageClient.Proofs.World.Steady
import LanguageClient.Wire.Frame
import Mathlib.Logic.Function.Iterate

/-!
The task that reads from a connection, once nothing more will be written. It goes on to the end of what
has been written, and stops before that only for a response that cannot be handed on.
-/

namespace LanguageClient

open Schedule

/-- Why a message cannot be handed on: the number it answers is no key, or its error is no mapping. -/
inductive Connection.Refused (message : Entries) : Failure → Prop
  | number {id : Value} (named : Entries.field? "id" message = some id) (key : id.key? = none) :
      Refused message (.unhashable id.kind)
  | error {e : Value} (named : Entries.field? "error" message = some e)
      (other : ∀ entries, e ≠ .map entries) : Refused message (.noMember e.kind "get")

theorem Failure.ofResponse_other {v : Value} (other : ∀ entries, v ≠ .map entries) :
    Failure.ofResponse v = .error (.noMember v.kind "get") := by
  cases v with
  | map entries => exact absurd rfl (other entries)
  | _ => rfl

namespace World

variable {k : ConnectionId} {t : TaskId} {w w' : World}

/-- The backends and the connections, as they are. -/
def pipes (w : World) : List Backend × List Connection := (w.backends, w.connections)

section Pipes

variable (s : SessionId) (w : World)

theorem pipes_wakeTaker : (w.wakeTaker s).pipes = w.pipes := by
  unfold wakeTaker
  split <;> rfl

theorem pipes_hear (method params : Value) : (w.hear s method params).pipes = w.pipes := by
  unfold hear publish
  split
  · split
    · split
      · exact pipes_wakeTaker s _
      · rfl
    · rfl
  · rfl

theorem pipes_closeBus : (w.closeBus s).pipes = w.pipes := by
  unfold closeBus
  split
  · rfl
  · exact pipes_wakeTaker s _

theorem pipes_tellExit (watcher : Session.Watcher) : (w.tellExit s watcher).pipes = w.pipes := by
  unfold tellExit
  split <;> rfl

theorem pipes_connectionLost : (w.connectionLost s).pipes = w.pipes := by
  unfold connectionLost
  split
  · rfl
  · exact (foldl_reading (fun w x => pipes_tellExit s w x) _ _).trans (pipes_closeBus s _)

theorem pipes_notify (k : ConnectionId) (method params : Value) :
    (w.notify k method params).pipes = w.pipes := by
  unfold notify
  split
  · exact pipes_hear _ w _ _
  · rfl

end Pipes

/-- A response settles the request it names, or none, and shows in nothing else. -/
theorem respond_cases (k : ConnectionId) {id : Value} {message : Entries}
    (named : Entries.field? "id" message = some id) (w : World) :
    (∃ l, w.respond k id message = .ok { w with loop := l }) ∨
      ∃ e, w.respond k id message = .error e ∧ Connection.Refused message e := by
  unfold respond
  split
  · next none => exact .inr ⟨_, rfl, .number named none⟩
  split
  · exact .inl ⟨w.loop, rfl⟩
  split
  · exact .inl ⟨w.loop, rfl⟩
  split
  · next e failed =>
    -- An error that counts as false is taken for a mapping without entries.
    by_cases mapping : ∃ entries, (if e.truthy then e else .map []) = .map entries
    · obtain ⟨entries, same⟩ := mapping
      rw [same]
      exact .inl ⟨_, rfl⟩
    · have truthy : e.truthy = true := by
        cases truthy : e.truthy with
        | true => rfl
        | false => exact absurd ⟨[], by simp [truthy]⟩ mapping
      rw [if_pos truthy] at mapping ⊢
      have other (entries : Entries) : e ≠ .map entries := fun same => mapping ⟨entries, same⟩
      rw [Failure.ofResponse_other other]
      exact .inr ⟨_, rfl, .error failed other⟩
  · exact .inl ⟨_, rfl⟩

theorem dispatch_cases (k : ConnectionId) (message : Entries) (w : World) :
    (∃ w', w.dispatch k message = .ok w' ∧ w'.backends = w.backends ∧
      w'.connections.map (·.backend) = w.connections.map (·.backend)) ∨
      ∃ e, w.dispatch k message = .error e ∧ Connection.Refused message e := by
  unfold dispatch
  dsimp only
  split
  · split
    · exact .inl ⟨w, rfl, rfl, rfl⟩
    · next numbered =>
      cases named : Entries.field? "id" message with
      | none =>
        rw [named] at numbered
        exact absurd rfl numbered
      | some id =>
        rcases respond_cases k named w with ⟨l, told⟩ | refused
        · exact .inl ⟨_, told, rfl, rfl⟩
        · exact .inr refused
  · left
    split
    · have same := pipes_notify w k ((Entries.field? "method" message).getD .null)
        ((Entries.field? "params" message).getD .null)
      exact ⟨_, rfl, congrArg Prod.fst same, congrArg (fun p => p.2.map (·.backend)) same⟩
    · exact ⟨_, rfl, rfl, map_modify_same (fun _ => by rfl) k w.connections⟩

theorem closed_endConnection (known : k < w.connections.length) :
    ((w.endConnection k).connection k).closed = true ∧ (w.endConnection k).backends = w.backends ∧
      (w.endConnection k).connections.map (·.backend) = w.connections.map (·.backend) := by
  unfold endConnection
  dsimp only
  split
  · next closed => exact ⟨closed, rfl, rfl⟩
  let marked := w.setConnection k fun x => { x with closed := true, pending := [] }
  let failed := (w.connection k).pending.foldl
    (fun w p => w.onLoop (·.settle p.2 (.error (w.ended k)))) marked
  have same : failed.pipes = marked.pipes :=
    foldl_reading (fun w (p : Nat × CellId) =>
      (rfl : (w.onLoop (·.settle p.2 (.error (w.ended k)))).pipes = w.pipes)) _ _
  have backends : failed.backends = w.backends := congrArg Prod.fst same
  have connections : failed.connections = marked.connections := congrArg Prod.snd same
  have closed : (failed.connection k).closed = true := by
    rw [connection, connections]
    simp [marked, setConnection, List.getD_eq_getElem?_getD, known]
  have ports : failed.connections.map (·.backend) = w.connections.map (·.backend) := by
    rw [connections]
    exact map_modify_same (fun _ => by rfl) k w.connections
  have later {w' : World} (kept : w'.pipes = failed.pipes) : (w'.connection k).closed = true ∧
      w'.backends = w.backends ∧ w'.connections.map (·.backend) = w.connections.map (·.backend) := by
    have same : w'.connections = failed.connections := congrArg Prod.snd kept
    rw [connection, same]
    exact ⟨closed, (congrArg Prod.fst kept).trans backends, ports⟩
  split
  · exact later (pipes_connectionLost _ failed)
  · exact later rfl
  · exact later rfl

/-- What a connection has still to read. -/
def output (k : ConnectionId) (w : World) : Wire.Stream :=
  (w.backend (w.connection k).backend).output

/-- Nothing more will be written to a connection. -/
structure WrittenOut (k : ConnectionId) (w : World) : Prop where
  backend : (w.connection k).backend < w.backends.length
  connection : k < w.connections.length
  ended : (w.output k).ended = true

theorem backend_of_ports (ports : w'.connections.map (·.backend) = w.connections.map (·.backend))
    (k : ConnectionId) : (w'.connection k).backend = (w.connection k).backend := by
  have known (w : World) : (w.connection k).backend =
      (w.connections.map (·.backend)).getD k (default : Connection).backend := by
    simp only [connection, List.getD_eq_getElem?_getD, List.getElem?_map]
    cases w.connections[k]? <;> rfl
  rw [known, known, ports]

/-- What has been read is gone from the output, and all else of the pipes is left. -/
theorem output_of_ports {s : Wire.Stream} (known : (w.connection k).backend < w.backends.length)
    (backends : w'.backends = (w.setBackend (w.connection k).backend fun x => { x with output := s }).backends)
    (ports : w'.connections.map (·.backend) = w.connections.map (·.backend)) :
    w'.output k = s ∧ (w'.connection k).backend < w'.backends.length ∧
      w'.connections.length = w.connections.length := by
  have same := backend_of_ports ports k
  have long : w'.backends.length = w.backends.length := by
    rw [backends, setBackend, List.length_modify]
  refine ⟨?_, same ▸ long ▸ known, ?_⟩
  · rw [output, same, backend, backends]
    simp [setBackend, List.getD_eq_getElem?_getD, known]
  · have lengths := congrArg List.length ports
    rwa [List.length_map, List.length_map] at lengths

/-- What a step of a reader comes to, once nothing more will be written. -/
inductive Forward (k : ConnectionId) (w : World) : Step → Prop
  /-- A message has been handed on, or a fault passed over. -/
  | goes {w' : World} (finished : w'.WrittenOut k)
      (shorter : (w'.output k).buffer.length < (w.output k).buffer.length) :
      Forward k w (.goto (.connection k (.read .start)), w')
  | ends {w' : World} (empty : (w'.output k).buffer = []) (closed : (w'.connection k).closed = true) :
      Forward k w (.done (.ok .nothing), w')
  | breaks {w' : World} {message : Entries} {e : Failure} (refused : Connection.Refused message e)
      (closed : (w'.connection k).closed = true) : Forward k w (.done (.error e), w')

theorem readOn_forward (finished : w.WrittenOut k) : Forward k w (w.readOn k .start) := by
  obtain ⟨known, known', ended⟩ := finished
  unfold readOn
  dsimp only
  cases came : Wire.read .start (w.backend (w.connection k).backend).output with
  | mk reading rest =>
    obtain ⟨⟨n, left⟩, shrinks, settled, exhausted⟩ := Wire.read_finished ended came
    have still : rest.ended = true := by rw [left]; exact ended
    let w₁ := w.setBackend (w.connection k).backend fun x => { x with output := rest }
    have goes {w' : World} (backends : w'.backends = w₁.backends)
        (ports : w'.connections.map (·.backend) = w.connections.map (·.backend))
        (going : reading ≠ .ended) : Forward k w (.goto (.connection k (.read .start)), w') := by
      obtain ⟨output, bound, long⟩ := output_of_ports known backends ports
      have filled : (w.output k).buffer ≠ [] := fun empty => by
        have finished := Wire.read_empty ended empty
        rw [World.output, came] at finished
        exact going finished
      refine .goes ⟨bound, long ▸ known', by rw [output]; exact still⟩ ?_
      rw [output]
      exact shrinks filled
    have atEnd (empty : rest.buffer = []) :
        ((w₁.endConnection k).output k).buffer = [] ∧ ((w₁.endConnection k).connection k).closed = true := by
      obtain ⟨closed, backends, ports⟩ := closed_endConnection (w := w₁) known'
      rw [(output_of_ports known backends ports).1]
      exact ⟨empty, closed⟩
    cases reading with
    | message v =>
      cases v with
      | map entries =>
        dsimp only
        rcases dispatch_cases k entries w₁ with ⟨w', told, backends, ports⟩ | ⟨e, failed, refused⟩
        · rw [told]
          exact goes backends ports fun same => nomatch same
        · rw [failed]
          exact .breaks refused (closed_endConnection (w := w₁) known').1
      | _ => exact goes rfl rfl fun same => nomatch same
    | fault f => exact goes rfl rfl fun same => nomatch same
    | ended =>
      obtain ⟨empty, closed⟩ := atEnd (exhausted rfl)
      exact .ends empty closed
    | wait p => exact absurd rfl (settled p)

theorem stack_setStack (inside : t < w.loop.tasks.length) (stack : List Frame) :
    (w.setStack t stack).stack t = stack := by
  simp [World.stack, setStack, setTask, onLoop, Loop.setTask, List.getElem?_eq_getElem inside]

/-- A reader goes on until everything has been read, in no more steps than there are bytes and one for
the end, unless a message is refused. -/
theorem reader_finishes {x : Result} (finished : w.WrittenOut k) (runs : w.current = some (t, .ok x))
    (top : w.stack t = [.connection k (.read .start)]) :
    ∃ n ≤ (w.output k).buffer.length + 1,
      (step^[n] w).stack t = [] ∧ ((step^[n] w).connection k).closed = true ∧
        (((step^[n] w).current = some (t, .ok .nothing) ∧ ((step^[n] w).output k).buffer = []) ∨
          ∃ message e, Connection.Refused message e ∧ (step^[n] w).current = some (t, .error e)) := by
  -- What is handed on makes the output shorter, so that is what the induction is on.
  induction hn : (w.output k).buffer.length using Nat.strongRecOn generalizing w x with
  | ind n ih =>
    subst hn
    have one : w.step = land t [] ({ w with current := none }.readOn k .start) := by
      rw [step, runs]
      exact stepTask_cons top
    have inside : t < w.loop.tasks.length := lt_of_stack (top ▸ List.mem_cons_self)
    obtain ⟨begun, turn, -⟩ := readOn_turn (R := fun _ => False) k .start x { w with current := none }
    have grown := Nat.lt_of_lt_of_le inside turn.keeps.kept.tasks
    have forward := readOn_forward (w := { w with current := none })
      ⟨finished.backend, finished.connection, finished.ended⟩
    generalize { w with current := none }.readOn k .start = reached at one turn grown forward
    cases forward with
    | @goes w' finished shorter =>
      have next : w.step.stack t = [.connection k (.read .start)] := by
        rw [one]
        exact stack_setStack grown _
      obtain ⟨n, small, rest⟩ := ih _ shorter (w := w.step) (x := .nothing)
        (by rw [one]; exact ⟨finished.backend, finished.connection, finished.ended⟩)
        (by rw [one]; rfl) next (by rw [one]; rfl)
      exact ⟨n + 1, Nat.succ_le_succ (Nat.le_trans small shorter), rest⟩
    | @ends w' empty closed =>
      refine ⟨1, Nat.le_add_left 1 _, ?_⟩
      rw [Function.iterate_one, one]
      exact ⟨stack_setStack grown _, closed, .inl ⟨rfl, empty⟩⟩
    | @breaks w' message e refused closed =>
      refine ⟨1, Nat.le_add_left 1 _, ?_⟩
      rw [Function.iterate_one, one]
      exact ⟨stack_setStack grown _, closed, .inr ⟨message, e, refused, rfl⟩⟩

/-- A connection alone, whose backend has written some bytes and will write no more. -/
def lone (output : Text.Bytes) : World :=
  ((((ofConnection (Connection.make "backend" 0 (.recorder true) .never [])).take
    (.listen 0 (.recorder true))).take (.backend 0 (.write output))).take (.backend 0 .endOutput)).step

def notification : Text.Bytes := Wire.frame (.record [("method", .text "note")])

/-- A response to a number that is a list, with a notification behind it that is never read. -/
theorem reader_breaks :
    let w := lone (Wire.frame (.record [("id", .list [])]) ++ notification)
    (w.WrittenOut 0 ∧ w.current = some (0, .ok .nothing) ∧ w.stack 0 = [.connection 0 (.read .start)]) ∧
      (w.step.connection 0).closed = true ∧ (w.step.output 0).buffer = notification := by
  refine ⟨⟨⟨by decide, by decide, by decide⟩, rfl, rfl⟩, ?_⟩
  decide +kernel

end World
end LanguageClient
