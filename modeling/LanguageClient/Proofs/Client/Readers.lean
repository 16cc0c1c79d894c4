import LanguageClient.Proofs.Client.Guards
import LanguageClient.Proofs.Client.Shift

/-!
The tasks that read from connections. One that has been given up comes to its end well.
-/

namespace LanguageClient

open Schedule

namespace World

variable {may : Frame → Prop} {R : CellId → Prop} {t u : TaskId} {c : CellId} {w w' w₂ : World}
variable {f : Frame} {rest begun : List Frame} {o : Outcome Result} {flow : Flow Frame Result}
variable {k : ConnectionId}

/-- Where a task stands that reads. -/
def Reads (stack : List Frame) : Prop := ∃ k point, stack = [.connection k (.read point)]

/-- A task that reads goes on with that, unless it ends. -/
theorem Leads.reads {point : Wire.Point} (h : Leads t w w' (.connection k (.read point)) o flow) :
    flow.frames = [] ∨ Reads flow.frames := by
  cases h with
  | fails | served | leaves => exact .inl rfl
  | mute writes =>
    rcases writes with ⟨_, _, same⟩ | ⟨_, _, _, same⟩ <;> cases same
  | @serves _ _ q _ _ _ _ flow_ reads =>
    cases q with
    | read point' =>
      rcases flow_ with rfl | ⟨c, -, rfl⟩
      · exact .inr ⟨k, point', rfl⟩
      · exact .inr ⟨k, point', rfl⟩
    | _ => cases reads

theorem reads_of_strides (client : w.Client) (s : Strides R w w' t f o rest begun flow w₂)
    (stack : w'.stack t = flow.frames ++ rest) (reads : Reads (w.stack t)) :
    w'.stack t = [] ∨ Reads (w'.stack t) := by
  obtain ⟨k, point, top⟩ := reads
  have same := s.top.symm.trans top
  cases same
  rw [stack, List.append_nil]
  exact (client.leads s).reads

/-- The readers of connections. -/
def Readers (w : World) : Prop :=
  ∀ k u, (w.connection k).reader = some u → w.stack u = [] ∨ Reads (w.stack u)

theorem reader_core (k : ConnectionId) (w : World) :
    (w.core.connection k).reader = (w.connection k).reader := by
  have same := congrArg Connection.reader (connection_core k w)
  exact same

theorem Readers.move (h : w.Readers) (client : w.Client) (sound : w.Sound) (m : Move may R w w')
    (first : ∀ g, may g → g.isCall = true) : w'.Readers := by
  intro k u reader
  have old (reader : (w.connection k).reader = some u) : w'.stack u = [] ∨ Reads (w'.stack u) := by
    have before := h k u reader
    cases sound.fate m u with
    | stays stack => rwa [stack]
    | ends _ stack => exact .inl stack
    | wakes _ stack => rwa [stack]
    | begins new => exact absurd (sound.refers true u (.reader reader)) (Nat.not_lt.2 new)
    | goes s stack =>
      rcases before with empty | reads
      · rw [s.top] at empty
        cases empty
      · exact reads_of_strides client s stack reads
  rw [← reader_core] at reader
  rcases m.alters (fun _ allowed => nomatch first _ allowed) k with
    same | ⟨t, f, o, rest, begun, flow, w₂, s, alters⟩
  · exact old ((reader_core k w).symm.trans (same ▸ reader))
  · generalize w'.core.connection k = x at alters reader
    cases alters with
    | opens =>
      have new : u = w.loop.tasks.length := (Option.some.inj reader).symm
      subst new
      have other : w.loop.tasks.length ≠ t := Nat.ne_of_gt (sound.running s.runs)
      rcases (s.turn.piles (sound.running s.runs) s.lands).2 _ other with
        ⟨old, -⟩ | ⟨-, g, found, stack⟩ | out
      · exact absurd old (Nat.lt_irrefl _)
      · have index : w.loop.tasks.length - w.loop.tasks.length = 0 := Nat.sub_self _
        have found' : [Frame.connection k (.read .start)][0]? = some g := index ▸ found
        cases found'
        exact .inr ⟨k, .start, stack⟩
      · exact .inl (stack_of_le out)
    | same | requests | withdraws | ends => exact old ((reader_core k w).symm.trans reader)

/-- A reader that has been given up: it ends well, whatever it is about to do. -/
inductive Doomed (w : World) (u : TaskId) : Prop
  | due (reads : Reads (w.stack u)) (due : w.loop.due u = true) (still : ∀ o, w.current ≠ some (u, o))
  | lost {c : CellId} (reads : Reads (w.stack u)) (waits : w.loop.waits u = some c)
    (lost : w.loop.outcome? c = some (.error .cancelled))
  | fails {e : Failure} (reads : Reads (w.stack u)) (runs : w.current = some (u, .error e))
  | ends {r : Result} (runs : w.current = some (u, .ok r)) (top : w.stack u = [])
  | done {r : Result} (inside : u < w.loop.tasks.length)
    (done : w.loop.outcome? (w.loop.taskCell u) = some (.ok r))

/-- Another task does not hear of a cancellation that is due. -/
theorem land_due (rest : List Frame) (flow : Flow Frame Result) (other : u ≠ t)
    (due : w.loop.due u = true) : (land t rest (flow, w)).loop.due u = true := by
  have mark {f : TaskState Frame → TaskState Frame} {l : Loop Frame Result Notice}
      (due : l.due u = true) : (l.setTask t f).due u = true := by
    have same : (l.setTask t f).tasks[u]? = l.tasks[u]? := by
      simp only [Loop.setTask, List.getElem?_modify, Ne.symm other, if_false]
      cases l.tasks[u]? <;> rfl
    rwa [Loop.due, same]
  have moved (stack : List Frame) : (w.setStack t stack).loop.due u = true := mark due
  cases flow with
  | done => exact moved _
  | goto => exact moved _
  | call => exact moved _
  | pause => exact moved _
  | await c g =>
    rw [land_await]
    split
    · exact moved _
    · have watched : ((w.setStack t (g :: rest)).watchCell t c).loop.due u = true := by
        refine mark ?_
        have kept := Loop.tasks_watch c (.task t) (w.setStack t (g :: rest)).loop
        exact (Loop.due_of_tasks kept u).trans (moved _)
      rw [suspend_eq]
      split
      · split
        · let l : Loop Frame Result Notice := ((w.setStack t (g :: rest)).watchCell t c).loop
          have step : Loop.Op (ρ := Result) Calm (fun _ => True) False l (l.cancel c).2 :=
            .cancel l c trivial calm_cancelled
          have given : (l.cancel c).2.due u = true := step.due watched
          dsimp only
          split
          · exact mark given
          · exact given
        · exact watched
      · exact watched

/-- A cancellation that is due stays so while another task makes a move. -/
theorem due_of_move (m : Move may R w w') (before : ∀ o, w.current ≠ some (u, o))
    (after : ∀ o, w'.current ≠ some (u, o)) (due : w.loop.due u = true) : w'.loop.due u = true := by
  cases m with
  | rests _ _ _ _ _ _ _ _ _ _ stays => exact stays u due
  | ends _ _ _ _ _ _ _ same =>
    subst same
    exact (Loop.due_of_tasks (Loop.tasks_settle _ _ _) u).trans due
  | @wakes t waited o _ _ _ runs _ _ _ _ same =>
    have other : u ≠ t := by
      rintro rfl
      exact after o runs
    rw [same]
    have kept : (({ w.loop with ready := w'.loop.ready }).setTask t fun task =>
        { task with waits := none, cancelDue := false }).tasks[u]? = w.loop.tasks[u]? := by
      simp only [Loop.setTask, List.getElem?_modify, Ne.symm other, if_false]
      cases w.loop.tasks[u]? <;> rfl
    rwa [Loop.due, kept]
  | @goes t o f rest begun flow w₀ w₂ runs top taken steps turn lands =>
    subst taken
    have other : u ≠ t := by
      rintro rfl
      exact before o runs
    rw [lands.same]
    exact land_due rest flow other (turn.keeps.ops.due due)

theorem Reads.lt (h : Reads (w.stack u)) : u < w.loop.tasks.length := by
  obtain ⟨k, point, top⟩ := h
  exact lt_of_stack (top ▸ List.mem_cons_self)

namespace Doomed

theorem move (h : w.Doomed u) (client : w.Client) (sound : w.Sound) (m : Moves may R w w') :
    w'.Doomed u := by
  have idle (c : CellId) (waits : w.loop.waits u = some c) (o : Outcome Result) :
      w.current ≠ some (u, o) := by
    intro runs
    have none := (sound.orderly.running u (by rw [runs]; rfl)).2.1
    rw [waits] at none
    cases none
  cases h with
  | done inside done =>
    have cell := m.moved.taskCell u inside
    exact .done (Nat.lt_of_lt_of_le inside m.moved.tasks) (cell ▸ m.moved.settles.outcome done)
  | ends runs top =>
    have inside := sound.running runs
    have done := Sound.ended m.move ⟨runs, top⟩
    exact .done (Nat.lt_of_lt_of_le inside m.moved.tasks) ((m.moved.taskCell u inside).symm ▸ done)
  | fails reads runs =>
    cases sound.fate m.move u with
    | stays _ _ before => exact absurd runs (before _)
    | ends ends =>
      obtain ⟨k, point, top⟩ := reads
      rw [ends.2] at top
      cases top
    | wakes idle =>
      rw [idle] at runs
      cases runs
    | begins new => exact absurd reads.lt (Nat.not_lt.2 new)
    | @goes f o rest begun flow w₂ s stack =>
      have same := s.runs.symm.trans runs
      cases same
      obtain ⟨k, point, top⟩ := reads
      have same := s.top.symm.trans top
      cases same
      have leads := client.leads s
      cases leads with
      | fails catches => cases catches
      | leaves => exact .ends s.lands.next.1 stack
  | due reads due still =>
    cases sound.fate m.move u with
    | stays stack _ before after => exact .due (stack ▸ reads) (due_of_move m.move before after due) after
    | ends ends => exact absurd ends.1 (still _)
    | @wakes _ o _ stack _ _ runs outcome =>
      rw [if_pos due] at outcome
      subst outcome
      exact .fails (stack ▸ reads) runs
    | begins new => exact absurd reads.lt (Nat.not_lt.2 new)
    | goes s => exact absurd s.runs (still _)
  | @lost c reads waits lost =>
    cases sound.fate m.move u with
    | stays stack same => exact .lost (stack ▸ reads) (same.trans waits) (m.moved.settles.outcome lost)
    | ends ends => exact absurd ends.1 (idle c waits _)
    | @wakes waited o _ stack before _ runs outcome =>
      refine .fails (e := .cancelled) (stack ▸ reads) ?_
      rw [runs]
      split at outcome
      · rw [outcome]
      · rcases outcome with ⟨none, -⟩ | ⟨d, same, settled⟩
        · rw [← before, waits] at none
          cases none
        · rw [← before, waits] at same
          cases same
          rw [lost] at settled
          cases settled
          rfl
    | begins new => exact absurd reads.lt (Nat.not_lt.2 new)
    | goes s => exact absurd s.runs (idle c waits _)

/-- A reader has ended well that somebody has waited for who has given it up. -/
theorem outcome (h : w.Doomed u) (sound : w.Sound)
    (settled : w.loop.outcome? (w.loop.taskCell u) = some o) : ∃ r, o = .ok r := by
  have done : w.loop.taskDone u = true := Option.isSome_iff_exists.2 ⟨o, settled⟩
  have going (reads : Reads (w.stack u)) : False := by
    obtain ⟨k, point, top⟩ := reads
    have none := ((sound.done u (Reads.lt ⟨k, point, top⟩)).1 done).1
    rw [top] at none
    cases none
  cases h with
  | due reads => exact (going reads).elim
  | lost reads => exact (going reads).elim
  | fails reads => exact (going reads).elim
  | ends runs =>
    have none := ((sound.done u (sound.running runs)).1 done).2
    exact absurd runs (none _)
  | done _ done' =>
    rw [settled] at done'
    exact ⟨_, Option.some.inj done'⟩

/-- A reader is given up that is told to stop. -/
theorem of_stops (readers : w.Readers) (client : w.Client) (sound : w.Sound)
    (s : Strides R w w' t (.connection k .close) o rest begun flow w₂)
    (reader : (w.connection k).reader = some u) (going : w.loop.taskDone u = false)
    (same : w₂ = { w with current := none }.onLoop (·.cancelTask u)) : w'.Doomed u := by
  have inside := sound.refers true u (.reader reader)
  have reads : Reads (w.stack u) := by
    rcases readers k u reader with empty | reads
    · have busy : ¬ (w.stack u = [] ∧ ∀ o, w.current ≠ some (u, o)) := fun idle => by
        rw [(sound.done u inside).2 idle] at going
        cases going
      refine absurd ⟨empty, fun o' runs => ?_⟩ busy
      rw [s.runs] at runs
      cases runs
      rw [s.top] at empty
      cases empty
    · exact reads
  have other : u ≠ t := by
    rintro rfl
    obtain ⟨k', point, top⟩ := reads
    rw [s.top] at top
    cases top
  obtain ⟨task, found⟩ : ∃ task, w.loop.tasks[u]? = some task := ⟨_, List.getElem?_eq_getElem inside⟩
  have cell : w.loop.taskCell u = task.cell := by rw [Loop.taskCell, found]
  have waits : w.loop.waits u = task.waits := by
    rw [Loop.waits_eq, found]
    rfl
  have unsettled : w.loop.outcome? task.cell = none :=
    cell ▸ Option.not_isSome_iff_eq_none.1 (Bool.eq_false_iff.1 going)
  obtain ⟨late, known, heard⟩ := Loop.tasks_cancelTask found (cell ▸ sound.cells u inside) unsettled
    fun c hc => client.plain u c (.inl (client.errands u (.reader reader))) (waits.trans hc)
  have stack : w'.stack u = w.stack u := by
    rcases (s.turn.piles (sound.running s.runs) s.lands).2 u other with
      ⟨-, stack⟩ | ⟨new, -⟩ | out
    · exact stack
    · exact absurd inside (Nat.not_lt.2 new)
    · have grown : w₂.loop.tasks.length ≤ w'.loop.tasks.length := (s.lands.aside.kept .none).tasks
      exact absurd inside (Nat.not_lt.2 (Nat.le_trans s.turn.keeps.kept.tasks (Nat.le_trans grown out)))
  subst same
  rcases heard with rfl | ⟨c, hc, lost⟩
  · have due : ({ w with current := none }.onLoop (·.cancelTask u)).loop.due u = true :=
      Loop.due_eq_true.2 ⟨_, known, rfl⟩
    refine .due (stack ▸ reads) ?_ (s.lands.next.other other)
    rw [s.lands.same]
    exact land_due rest flow other due
  · refine .lost (c := c) (stack ▸ reads) ?_ ((s.lands.aside.kept .none).settles.outcome lost)
    rw [s.lands.waits u other]
    exact (s.turn.keeps.ops.waits u).trans (waits.trans hc)

end Doomed
end World
end LanguageClient
