import LanguageClient.Proofs.Client.Reading
import LanguageClient.Proofs.Client.Standing

/-!
What is left to be done once a session has been stopped or asked to: until its process has gone, its
connection has ended and its events are over, some task still stands where it sees to that.
-/

namespace LanguageClient

open Schedule

/-- Stages before the process of a session has gone. -/
def Session.Stage.reaps : Stage → Bool
  | .release | .released => false
  | p => p.closes

namespace World

variable {may : Frame → Prop} {R : CellId → Prop} {t u : TaskId} {w w' w₂ : World}
variable {f g : Frame} {rest begun : List Frame} {o : Outcome Result} {flow : Flow Frame Result}
variable {k : ConnectionId} {s : SessionId} {p : Session.Stage} {q : Connection.Stage}
variable {ms : List Moment} {m : Moment}

/-- A task stands on a stage of some kind. -/
def Stands (w : World) (kind : Session.Stage → Bool) : Prop :=
  ∃ t p, .session 0 p ∈ w.stack t ∧ kind p = true

structure Duties (w : World) : Prop where
  vacant : w.Over → w.Vacant 0 ∨ w.Stands Session.Stage.reaps
  closed : w.Over → (w.session 0).connection = none ∨ (w.connection 0).closed = true ∨
    ∃ t p, .session 0 p ∈ w.stack t ∧ p.closes = true ∧ ∀ rest, w.stack t ≠ .session 0 .released :: rest
  shut : w.Over → (w.session 0).bus.closed = true ∨ w.Stands Session.Stage.closes

theorem closes_of_reaps (h : p.reaps = true) : p.closes = true := by
  cases p <;> first | rfl | cases h

/-- Failures of what a session asks its backend are such that it is ready for. -/
theorem Replied.expected {e : Failure} (h : Replied ms (.error e)) : isExpected e = true := by
  rcases h with (⟨r, same⟩ | ⟨name, cause, same⟩) | same | ⟨k, id, m, -, tells⟩
  · cases same
  · cases same
    rfl
  · cases same
    rfl
  · obtain ⟨t, r, f, rest, c, -, ⟨point, entries, rest', key, -, -, -, -, -, reply⟩, -⟩ := tells
    unfold Connection.reply? at reply
    split at reply
    · split at reply
      · next failure known =>
        cases reply
        unfold Failure.ofResponse at known
        split at known
        · cases known
          rfl
        · cases known
      · cases reply
    · cases reply

theorem Sent.expected {e : Failure} (h : Sent (.error e)) : isExpected e = true :=
  @Replied.expected [] e (.inl h)

/-- No failure comes to a stage of a session that does not see to it. -/
theorem Fits.caught {e : Failure} (h : Fits ms w (.session s p :: rest) (.error e)) :
    (Frame.session s p).catches e = true := by
  have sent (sent : Sent (.error e)) : ∃ name cause, e = .closed name cause := by
    rcases sent with ⟨r, same⟩ | ⟨name, cause, same⟩ <;> cases same
    exact ⟨name, cause, rfl⟩
  have late {q : Session.Stage} (h : (.error e : Outcome Result) = .error .timeout ∨
      Brings ms w (.session s q) (.error e)) : e = .timeout := by
    rcases h with same | ⟨⟨r, same⟩, -⟩ <;> cases same
    rfl
  cases p with
  | initializeAnswered | initializedSent => rfl
  | flushed | notified =>
    obtain ⟨name, cause, rfl⟩ := sent h
    rfl
  | shutdownAnswered => exact Replied.expected h
  | exitSent => exact Sent.expected h
  | graceOver | terminateOver =>
    rw [late h]
    rfl
  | killed =>
    obtain ⟨⟨r, same⟩, -⟩ := h
    cases same
  | _ =>
    obtain ⟨r, same⟩ := h
    cases same

/-- What a session has called serves nobody. -/
theorem Linked.not_errand {stack : List Frame} (linked : Linked stack) (hp : .session s p ∈ stack) :
    ¬ Errand stack := by
  induction stack generalizing s p with
  | nil => cases hp
  | cons f rest ih =>
    cases rest with
    | nil =>
      cases List.mem_singleton.1 hp
      exact fun errand => nomatch errand _ rfl
    | cons g rest =>
      have below : Errand (f :: g :: rest) → Errand (g :: rest) := fun errand f' hf' =>
        errand f' (by rwa [List.getLast?_cons_cons])
      rcases List.mem_cons.1 hp with rfl | lower
      · obtain ⟨⟨r, calls, has⟩, linked⟩ := linked
        cases has with
        | stage =>
          cases g with
          | session s' p' => exact fun errand => ih linked List.mem_cons_self (below errand)
          | connection k q => cases q <;> cases calls
          | _ => cases calls
      · exact fun errand => ih linked.2 lower (below errand)

/-- A task that makes a step, at a stage or above one, goes on with what fits there. -/
theorem Knowing.fits (h : Knowing ms w) (alone : w.Alone)
    (strides : Strides R w w' t f o rest begun flow w₂)
    (stage : f = .session s p ∨ .session s p ∈ rest) : Fits ms w (f :: rest) o := by
  have member : .session s p ∈ w.stack t := by
    rw [strides.top]
    rcases stage with same | below
    · exact same ▸ List.mem_cons_self
    · exact List.mem_cons_of_mem f below
  have known := (h t ((alone.client.linked t).not_errand member)).fits alone.sound strides.runs
  rwa [strides.top] at known

/-- A stage is left out only when there is no connection. -/
theorem Leads.unreleased {more : List Frame} (h : Leads t w w' f o flow)
    (frames : flow.frames = .session s .released :: more) : (w.session s).connection = none := by
  cases h with
  | unconnected none stages =>
    cases frames
    exact none
  | serves _ _ flow_ => rcases flow_ with rfl | ⟨c, -, rfl⟩ <;> cases frames
  | stopsAnswers _ flow_ => rcases flow_ with rfl | ⟨c, rfl⟩ <;> cases frames
  | launches _ flow_ => rcases flow_ with rfl | ⟨c, -, rfl⟩ <;> cases frames
  | takes _ stages flow_ =>
    rcases flow_ with rfl | rfl | ⟨c, -, rfl⟩ <;> rcases stages with rfl | ⟨c, rfl⟩ <;> cases frames
  | _ => cases frames

/-- How a stage goes on that sees to the end of a session. -/
inductive Proceeds (w w' : World) (p : Session.Stage) (flow : Flow Frame Result) : Prop
  | reaps {q : Session.Stage} (before : p.reaps = true) (last : flow.frames.getLast? = some (.session 0 q))
    (after : q.reaps = true)
  | vacates (before : p.reaps = true) (flow_ : flow = .goto (.session 0 .release))
    (vacant : w.Vacant 0 ∨ w'.Vacant 0)
  | releases (same : p = .release)
    (flow_ : (flow = .goto (.session 0 .released) ∧ (w.session 0).connection = none) ∨
      ∃ k, flow = .call (.connection k .close) (.session 0 .released) ∧
        (w.session 0).connection = some k)
  | released (same : p = .released) (core : w'.core = w.core.setSession 0 Session.shut)
    (flow_ : flow = .done (.ok .nothing))

theorem Conduct.proceeds (h : Conduct w w' 0 p o flow) (closes : p.closes = true)
    (fits : Fits ms w (.session 0 p :: rest) o) : Proceeds w w' p flow := by
  cases h with
  | fails none =>
    rw [fits.caught] at none
    cases none
  | refused stages => rcases stages with ⟨rfl, -⟩ | ⟨b, rfl⟩ | ⟨e, rfl⟩ <;> cases closes
  | gives stages => rcases stages with rfl | rfl <;> cases closes
  | abandons stages => rcases stages with rfl | rfl <;> cases closes
  | takes stages => rcases stages with rfl | ⟨c, rfl⟩ <;> cases closes
  | unconnected none stages =>
    rcases stages with ⟨rfl, -⟩ | ⟨rfl, rfl⟩ | ⟨timeout, rfl, rfl⟩
    · cases closes
    · exact .releases rfl (.inl ⟨rfl, none⟩)
    · exact .reaps rfl rfl rfl
  | dismisses => exact .reaps rfl rfl rfl
  | turns stages => rcases stages with rfl | ⟨rfl, -⟩ <;> exact .reaps rfl rfl rfl
  | insists stages => rcases stages with ⟨_, _, rfl, -⟩ | ⟨rfl, -⟩ <;> exact .reaps rfl rfl rfl
  | vacates stages vacant =>
    rcases stages with ⟨_, rfl⟩ | rfl | rfl <;> exact .vacates rfl rfl (.inr vacant)
  | @exits _ r stages =>
    have brings : p.reaps = true ∧ ∃ b, (w.session 0).backend = some b ∧ w.Exited b := by
      rcases stages with rfl | rfl | rfl
      · exact ⟨rfl, (fits.resolve_left fun same => nomatch same).2⟩
      · exact ⟨rfl, (fits.resolve_left fun same => nomatch same).2⟩
      · exact ⟨rfl, fits.2⟩
    obtain ⟨before, b', found', exited⟩ := brings
    refine .vacates before rfl (.inl fun b found => ?_)
    rw [found] at found'
    cases found'
    exact exited
  | watches _ _ stages =>
    rcases stages with ⟨rfl, rfl, -⟩ | ⟨rfl, rfl, -⟩ | ⟨rfl, rfl, -⟩ <;> exact .reaps rfl rfl rfl
  | releases connected => exact .releases rfl (.inr ⟨_, rfl, connected⟩)
  | released core => exact .released rfl core rfl
  | _ => cases closes

/-- Such a stage leads to another, which sees to the process as well unless that has gone. -/
theorem Proceeds.leads (h : Proceeds w w' p flow) : (p = .released ∧
      w'.core = w.core.setSession 0 Session.shut) ∨
    ∃ q, .session 0 q ∈ flow.frames ∧ q.closes = true ∧
      (p.reaps = true → q.reaps = true ∨ w.Vacant 0 ∨ w'.Vacant 0) := by
  cases h with
  | reaps _ last after =>
    exact .inr ⟨_, List.mem_of_getLast? last, closes_of_reaps after, fun _ => .inl after⟩
  | vacates _ flow_ vacant =>
    subst flow_
    exact .inr ⟨_, List.mem_singleton_self _, rfl, fun _ => .inr vacant⟩
  | releases same flow_ =>
    subst same
    refine .inr ⟨.released, ?_, rfl, nofun⟩
    rcases flow_ with ⟨rfl, -⟩ | ⟨k, rfl, -⟩
    · exact List.mem_singleton_self _
    · exact List.mem_cons_of_mem _ List.mem_cons_self
  | released same core => exact .inl ⟨same, core⟩

/-- How a session comes to be over: a task comes to see to that, or the start has failed before there
was a process. -/
inductive Overcome (w w' : World) : Prop
  | stage {t : TaskId} {p : Session.Stage} (mem : .session 0 p ∈ w'.stack t) (reaps : p.reaps = true)
    (top : ∀ rest, w'.stack t ≠ .session 0 .released :: rest)
  | loses (loses : w.Loses w')
  | failed (vacant : (w'.session 0).backend = none) (alone : (w'.session 0).connection = none)
    (shut : (w'.session 0).bus.closed = true)

theorem Standing.over_cases (h : w.Standing) (alone : w.Alone) (move : Move may R w w')
    (before : ¬ w.Over) (past : w'.Over) : w.Overcome w' := by
  have kept (state : (w'.core.session 0).state = .stopped → (w.core.session 0).state = .stopped)
      (stopping : (w'.core.session 0).stopping = true → (w.core.session 0).stopping = true) : False := by
    rw [state_core, state_core] at state
    rw [stopping_core, stopping_core] at stopping
    exact before (past.imp state stopping)
  rcases alone.client.shifts move 0 with same | ⟨t, f, o, rest, begun, flow, w₂, strides, shifts⟩
  · exact (kept (same ▸ id) (same ▸ id)).elim
  · have stack := strides.stack alone.sound
    generalize known : w'.core.session 0 = x at shifts kept
    cases shifts with
    | abandons =>
      refine .stage (t := t) (p := .shutdown (.after 0)) ?_ rfl fun rest' same => ?_
      · rw [stack]
        exact List.mem_cons_self
      · rw [stack] at same
        cases same
    | joins _ reaped => exact absurd (.inl (h.reaped _ reaped).1) before
    | @stops timeout _ _ _ _ flow_ =>
      rcases flow_ with ⟨grace, rfl⟩ | ⟨k, -, -, -, rfl⟩
      · refine .stage (t := t) (p := .shutdown grace) ?_ rfl fun rest' same => ?_
        · rw [stack]
          exact List.mem_cons_self
        · rw [stack] at same
          cases same
      · refine .stage (t := t) (p := .shutdownAnswered timeout) ?_ rfl fun rest' same => ?_
        · rw [stack]
          exact List.mem_cons_of_mem _ List.mem_cons_self
        · rw [stack] at same
          cases same
    | loses =>
      rcases alone.loses_of_change strides with ⟨loses, -⟩ | ⟨same, -⟩
      · exact .loses loses
      · rw [known] at same
        exact (kept (same ▸ id) (same ▸ id)).elim
    | fails =>
      have top : .session 0 _ ∈ w.stack t := strides.top ▸ List.mem_cons_self
      have gone (vacant : (w.session 0).backend = none) (unconnected : (w.session 0).connection = none) :
          w.Overcome w' := by
        rw [← process_core] at vacant
        rw [← connected_core] at unconnected
        refine .failed ?_ ?_ ?_
        · rw [← process_core, known]
          exact vacant
        · rw [← connected_core, known]
          exact unconnected
        · rw [← bus_core, known]
          rfl
      rcases (strides.conducts alone.client).failed with ⟨rfl, fresh⟩ | ⟨b, rfl⟩ | ⟨e, rfl⟩
      · exact gone (alone.launching.early fresh) (h.fresh fresh).2.2
      · exact gone (alone.launching.fresh t ⟨b, top⟩).2 (alone.unconnected ⟨b, top⟩).1
      · exact absurd (.inr (h.abandoned t e top)) before
    | starts | readies => exact (kept (fun same => nomatch same) id).elim
    | _ => exact (kept id id).elim

/-- Whoever is over is launched no more. -/
theorem Standing.not_going (h : w.Standing) (past : w.Over) (launches : w.Launches 0 t) :
    (w.session 0).stopping = true :=
  past.elim (h.launched t launches) id

/-- Whoever is over comes to no connection. -/
theorem Standing.still_unconnected (h : w.Standing) (alone : w.Alone) (move : Move may R w w')
    (past : w.Over) (absent : (w.session 0).connection = none) : (w'.session 0).connection = none := by
  rw [← connected_core] at absent ⊢
  rcases alone.client.shifts move 0 with same | ⟨u, f, o, rest, begun, flow, w₂, strides, shifts⟩
  · rwa [same]
  · generalize w'.core.session 0 = x at shifts
    cases shifts with
    | connects going =>
      rw [h.not_going past ⟨_, strides.top ▸ List.mem_cons_self⟩] at going
      cases going
    | _ => exact absent

/-- The events of a session that are over stay so. -/
theorem Client.still_shut (h : w.Client) (move : Move may R w w')
    (shut : (w.session 0).bus.closed = true) : (w'.session 0).bus.closed = true := by
  rw [← bus_core] at shut ⊢
  rcases h.shifts move 0 with same | ⟨u, f, o, rest, begun, flow, w₂, strides, shifts⟩
  · rwa [same]
  · generalize w'.core.session 0 = x at shifts
    cases shifts with
    | fails | shuts | loses => rfl
    | _ => exact shut

theorem Moves.vacant_later (moves : Moves may R w w') (vacant : w.Vacant 0)
    (same : (w'.session 0).backend = (w.session 0).backend) : w'.Vacant 0 :=
  fun b found => moves.moved.exits b (vacant b (same.symm.trans found))

/-- A process that has gone stays gone while a task sees to the end of its session. -/
theorem Strides.vacant_later (strides : Strides R w w' t (.session 0 p) o rest begun flow w₂)
    (client : w.Client) (moves : Moves may R w w') (closes : p.closes = true) (vacant : w.Vacant 0) :
    w'.Vacant 0 := by
  refine moves.vacant_later vacant ?_
  rcases client.backend_cases moves.move 0 with same | ⟨u, b, o', rest', runs, top⟩
  · exact same
  · cases strides.runs.symm.trans runs
    cases strides.top.symm.trans top
    cases closes

namespace Duties

variable (h : w.Duties) (standing : w.Standing) (alone : w.Alone) (moves : Moves may R w w')
variable (knowing : Knowing ms w)

include h standing alone moves knowing in
theorem vacant_move (past : w'.Over) : w'.Vacant 0 ∨ w'.Stands Session.Stage.reaps := by
  by_cases before : w.Over
  · rcases h.vacant before with vacant | ⟨t, p, hp, reaps⟩
    · rcases alone.client.backend_cases moves.move 0 with same | ⟨t, b, o, rest, runs, top⟩
      · exact .inl (moves.vacant_later vacant same)
      · have stopping := standing.not_going before ⟨b, top ▸ List.mem_cons_self⟩
        rcases alone.client.shifts moves.move 0 with same | ⟨u, f, o, rest, begun, flow, w₂, strides, shifts⟩
        · left
          refine moves.vacant_later vacant ?_
          rw [← process_core, ← process_core, same]
        · generalize known : w'.core.session 0 = x at shifts
          have kept (same : x.backend = (w.core.session 0).backend) : w'.Vacant 0 := by
            refine moves.vacant_later vacant ?_
            rw [← process_core, ← process_core, known, same]
          cases shifts with
          | arrives =>
            refine .inr ⟨u, .shutdown (.after 0), ?_, rfl⟩
            rw [strides.stack alone.sound]
            exact List.mem_cons_self
          | connects going =>
            rw [stopping] at going
            cases going
          | _ => exact .inl (kept rfl)
    · rcases alone.sound.lasts moves.move hp with kept | ⟨o, rest, begun, flow, w₂, strides, stack⟩
      · exact .inr ⟨t, p, kept, reaps⟩
      · have fit := knowing.fits alone strides (.inl rfl)
        rcases ((strides.conducts alone.client).proceeds (closes_of_reaps reaps) fit).leads with
          ⟨rfl, -⟩ | ⟨q, mem, -, leads⟩
        · cases reaps
        · rcases leads reaps with reaps' | vacant | vacant
          · exact .inr ⟨t, q, stack ▸ List.mem_append_left _ mem, reaps'⟩
          · exact .inl (strides.vacant_later alone.client moves (closes_of_reaps reaps) vacant)
          · left
            rw [strides.lands.aside.same]
            exact vacant
  · cases standing.over_cases alone moves.move before past with
    | @stage t p mem reaps => exact .inr ⟨t, p, mem, reaps⟩
    | loses loses => exact .inr ⟨_, _, loses.begun ▸ List.mem_singleton_self _, rfl⟩
    | failed vacant =>
      refine .inl fun b found => ?_
      rw [vacant] at found
      cases found

include h standing alone moves knowing in
theorem shut_move (past : w'.Over) :
    (w'.session 0).bus.closed = true ∨ w'.Stands Session.Stage.closes := by
  by_cases before : w.Over
  · rcases h.shut before with shut | ⟨t, p, hp, closes⟩
    · exact .inl (alone.client.still_shut moves.move shut)
    · rcases alone.sound.lasts moves.move hp with kept | ⟨o, rest, begun, flow, w₂, strides, stack⟩
      · exact .inr ⟨t, p, kept, closes⟩
      · have fit := knowing.fits alone strides (.inl rfl)
        rcases ((strides.conducts alone.client).proceeds closes fit).leads with
          ⟨-, core⟩ | ⟨q, mem, closes', -⟩
        · left
          rw [← bus_core, strides.lands.aside.core, core, Core.session_setSession_self alone.inside]
          rfl
        · exact .inr ⟨t, q, stack ▸ List.mem_append_left _ mem, closes'⟩
  · cases standing.over_cases alone moves.move before past with
    | @stage t p mem reaps => exact .inr ⟨t, p, mem, closes_of_reaps reaps⟩
    | loses loses => exact .inr ⟨_, _, loses.begun ▸ List.mem_singleton_self _, rfl⟩
    | failed _ _ shut => exact .inl shut

include standing alone in
/-- A call of the end of a connection comes to nothing before that has ended. -/
theorem closed_of_done {o' : Outcome Result}
    (strides : Strides R w w' t f o (.session 0 .released :: rest) begun (.done o') w₂)
    (fits : Fits ms w (f :: .session 0 .released :: rest) o) : (w'.connection 0).closed = true := by
  have linked : Linked (f :: .session 0 .released :: rest) := strides.top ▸ alone.client.linked t
  obtain ⟨⟨r, calls, has⟩, -⟩ := linked
  subst calls
  have leads := alone.client.leads strides
  cases has with
  | close =>
    obtain ⟨r, rfl⟩ := fits
    cases leads with
    | serves serves => cases serves
    | served serves => cases serves
    | mute writes => rcases writes with ⟨_, _, same⟩ | ⟨_, _, _, same⟩ <;> cases same
  | readerStopped =>
    obtain ⟨r, rfl⟩ := fits
    cases leads with
    | stopsAnswers _ flow_ => rcases flow_ with same | ⟨c, same⟩ <;> cases same
    | serves serves => cases serves
    | served serves => cases serves
    | mute writes => rcases writes with ⟨_, _, same⟩ | ⟨_, _, _, same⟩ <;> cases same
  | @answersStopped k =>
    obtain ⟨r, rfl⟩ := fits
    have top : Frame.connection k .answersStopped ∈ w.stack t := strides.top ▸ List.mem_cons_self
    have same : 0 = k := Option.some.inj (alone.places t _ top)
    subst same
    have inside : 0 < ({ w with current := none } : World).connections.length :=
      (standing.one_connection alone top).symm ▸ Nat.one_pos
    have ended : (({ w with current := none } : World).resumeConnection 0 .answersStopped (.ok r)).2 =
      w₂ := congrArg Prod.snd strides.steps
    rw [strides.lands.aside.same, ← ended]
    exact (closed_endConnection inside).1

include h standing alone moves knowing in
theorem closed_move (past : w'.Over) : (w'.session 0).connection = none ∨
    (w'.connection 0).closed = true ∨ ∃ t p, .session 0 p ∈ w'.stack t ∧ p.closes = true ∧
      ∀ rest, w'.stack t ≠ .session 0 .released :: rest := by
  by_cases before : w.Over
  · have unconnected (absent : (w.session 0).connection = none) : (w'.session 0).connection = none :=
      standing.still_unconnected alone moves.move before absent
    rcases h.closed before with none | closed | ⟨t, p, hp, closes, top⟩
    · exact .inl (unconnected none)
    · exact .inr (.inl (moves.move.still_closed closed))
    · cases alone.sound.fate moves.move t with
      | stays stack => exact .inr (.inr ⟨t, p, stack ▸ hp, closes, stack ▸ top⟩)
      | ends past' =>
        rw [past'.2] at hp
        cases hp
      | wakes _ stack => exact .inr (.inr ⟨t, p, stack ▸ hp, closes, stack ▸ top⟩)
      | begins new =>
        rw [stack_of_le new] at hp
        cases hp
      | @goes f o rest begun flow w₂ strides stack =>
        by_cases last : ∃ rest', w'.stack t = .session 0 .released :: rest'
        · obtain ⟨rest', last⟩ := last
          rw [stack] at last
          cases frames : flow.frames with
          | nil =>
            rw [frames] at last
            have same : rest = .session 0 .released :: rest' := last
            subst same
            have fit := knowing.fits alone strides (.inr List.mem_cons_self)
            cases flow with
            | done => exact .inr (.inl (closed_of_done standing alone strides fit))
            | _ => cases frames
          | cons g more =>
            rw [frames] at last
            cases (List.cons_eq_cons.1 last).1
            exact .inl (unconnected ((alone.client.leads strides).unreleased frames))
        · have top' (rest' : List Frame) : w'.stack t ≠ .session 0 .released :: rest' :=
            fun same => last ⟨rest', same⟩
          have there : .session 0 p ∈ f :: rest := strides.top ▸ hp
          rcases List.mem_cons.1 there with rfl | below
          · have fit := knowing.fits alone strides (.inl rfl)
            rcases ((strides.conducts alone.client).proceeds closes fit).leads with
              ⟨rfl, -⟩ | ⟨q, mem, closes', -⟩
            · exact absurd strides.top (top rest)
            · exact .inr (.inr ⟨t, q, stack ▸ List.mem_append_left _ mem, closes', top'⟩)
          · exact .inr (.inr ⟨t, p, stack ▸ List.mem_append_right _ below, closes, top'⟩)
  · cases standing.over_cases alone moves.move before past with
    | @stage t p mem reaps top => exact .inr (.inr ⟨t, p, mem, closes_of_reaps reaps, top⟩)
    | loses loses =>
      right
      left
      rw [← closed_core, standing.lost_connection alone loses]
      rfl
    | failed _ none => exact .inl none

include h standing alone moves knowing in
theorem move : w'.Duties where
  vacant := h.vacant_move standing alone moves knowing
  closed := h.closed_move standing alone moves knowing
  shut := h.shut_move standing alone moves knowing

end Duties

end World
end LanguageClient
