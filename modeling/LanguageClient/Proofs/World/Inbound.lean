import LanguageClient.Proofs.Schedule.Kind
import LanguageClient.Proofs.World.Backend
import LanguageClient.Session.Inbound

/-!
What reaches a session from its backend. Its events do not show in the core; the end of its
connection does.
-/

namespace LanguageClient.World

open Schedule

variable {A : Licence} {R : CellId → Prop} {begun more : List Frame}
variable {w w' : World}

/-- A change of a session that is not about its consumers or its reaper. -/
theorem Keeps.noteSession (h : Keeps A R begun w w') (s : SessionId)
    {f : Session → Session} (holds : ∀ x, (f x).takers = x.takers ∧ (f x).reaper = x.reaper) :
    Keeps A R begun w (w'.setSession s f) := by
  refine h.setSession s ?_ ?_
  · exact fun x c hc => .inl ((holds x).1 ▸ hc)
  · exact fun x t ht => .inl ((holds x).2 ▸ ht)

theorem Quiet.noteSession (s : SessionId) {f : Session → Session}
    (core : ∀ x, (f x).core = x.core)
    (holds : ∀ x, (f x).takers = x.takers ∧ (f x).reaper = x.reaper) (w : World) :
    Quiet A R [] w (w.setSession s f) :=
  ⟨(Keeps.refl w).noteSession s holds, core_setSession core s w⟩

theorem quiet_wakeTaker (s : SessionId) (w : World) :
    Quiet A R [] w (w.wakeTaker s) := by
  have fewer (cs : List CellId) (h : ∀ c ∈ cs, c ∈ (w.session s).takers) :
      Quiet A R [] w (w.setSession s fun x => { x with takers := cs }) := by
    refine ⟨(Keeps.refl w).data rfl rfl ?_ (fun _ hb => hb) ?_, core_setSession (fun _ => by rfl) s w⟩
    · intro r c hc
      left
      cases hc with
      | reader hc => exact .reader hc
      | writer hc => exact .writer hc
      | waiter hc => exact .waiter hc
      | @taker s' _ hc =>
        rcases session_setSession s s' (fun x => { x with takers := cs }) w with same | ⟨rfl, same⟩
        · exact .taker (same ▸ hc)
        · rw [same] at hc
          exact .taker (h c hc)
      | pending hc => exact .pending hc
    · intro drops t ht
      left
      cases ht with
      | reader ht => exact .reader ht
      | answer ht => exact .answer ht
      | @reaper s' _ ht =>
        rcases session_setSession s s' (fun x => { x with takers := cs }) w with same | ⟨rfl, same⟩
        · exact .reaper (same ▸ ht)
        · rw [same] at ht
          exact .reaper ht
      | relay ht => exact .relay ht
      | report ht => exact .report ht
  unfold wakeTaker
  split
  · exact fewer [] fun _ hc => nomatch hc
  · next c rest waiting =>
    have inside (d : CellId) (hd : d ∈ c :: rest) : d ∈ (w.session s).takers :=
      (List.dropWhile_suffix _).mem (waiting ▸ hd)
    have left := fewer rest fun d hd => inside d (List.mem_cons_of_mem c hd)
    exact ⟨left.keeps.release c (.inl ⟨.loose, .data (.taker (inside c List.mem_cons_self)), rfl⟩),
      left.core⟩

/-- A change of the queue of a session's events. -/
theorem Quiet.setBus (s : SessionId) {f : Bus → Bus} (h : ∀ x, (f x).closed = x.closed)
    (w : World) : Quiet A R [] w (w.setSession s fun x => { x with bus := f x.bus }) := by
  refine .noteSession s (fun x => ?_) (fun _ => ?_) w
  · simp [Session.core, h]
  · exact ⟨rfl, rfl⟩

theorem closed_publish (e : Event) (b : Bus) : (b.publish e).closed = b.closed := by
  unfold Bus.publish
  split <;> rfl

theorem quiet_publish (s : SessionId) (e : Event) (w : World) :
    Quiet A R [] w (w.publish s e) := by
  unfold publish
  split
  · have queued : Quiet A R [] w (w.setSession s fun x => { x with bus := x.bus.publish e }) :=
      .setBus s (closed_publish e) w
    exact queued.trans (quiet_wakeTaker s _)
  · exact .refl w

theorem closeBus_spec (s : SessionId) (w : World) :
    Keeps A R [] w (w.closeBus s) ∧ (w.closeBus s).core = w.core.setSession s Session.shut := by
  unfold closeBus
  split
  · next closed =>
    refine ⟨.refl w, ?_⟩
    have same : w.core.sessions.modify s Session.shut = w.core.sessions.modify s id := by
      refine modify_congr fun x found => ?_
      have known : (w.session s).core = x := by
        rw [← session_core, Core.session, List.getD_eq_getElem?_getD, found]
        rfl
      have shut : x.bus.closed = true := known ▸ closed
      simp only [Session.shut, id]
      rw [← shut]
    rw [Core.setSession, same, List.modify_id]
  · have closed : Keeps A R [] w (w.setSession s fun x => { x with bus := x.bus.close }) := by
      refine (Keeps.refl w).noteSession s fun _ => ?_
      exact ⟨rfl, rfl⟩
    have woken : Quiet A R [] _ ((w.setSession s fun x => { x with bus := x.bus.close }).wakeTaker s) :=
      quiet_wakeTaker s _
    exact ⟨closed.trans woken.keeps, woken.core.trans (core_setSession_eq Session.core_close s w)⟩

theorem quiet_hear (s : SessionId) (method params : Value) (w : World) :
    Quiet A R [] w (w.hear s method params) := by
  unfold hear
  split
  · split
    · exact quiet_publish s _ w
    · exact .refl w
  · exact .refl w

/-- A session may lose its places on the roster; others keep theirs. -/
structure Strikes (s : SessionId) (roster roster' : List (String × SessionId)) : Prop where
  fewer : List.Sublist roster' roster
  others : ∀ key s', lookup key roster = some s' → s' = s ∨ lookup key roster' = some s'

namespace Strikes

variable {s : SessionId} {roster roster' roster'' : List (String × SessionId)}

theorem refl (s : SessionId) (roster : List (String × SessionId)) : Strikes s roster roster :=
  ⟨List.Sublist.refl roster, fun _ _ h => .inr h⟩

theorem trans (h : Strikes s roster roster') (h' : Strikes s roster' roster'') :
    Strikes s roster roster'' where
  fewer := h'.fewer.trans h.fewer
  others key s' found := by
    rcases h.others key s' found with same | kept
    · exact .inl same
    · exact h'.others key s' kept

/-- All entries of a key go, which is that of the session. -/
theorem remove {key : String} (h : lookup key roster = some s) :
    Strikes s roster (roster.filter fun e => e.1 ≠ key) where
  fewer := List.filter_sublist
  others key' s' found := by
    by_cases same : key' = key
    · subst same
      rw [h] at found
      exact .inl (Option.some.inj found).symm
    · exact .inr ((lookup_filter_ne same roster).trans found)

theorem drop (key : String) (s : SessionId) (r : Roster) :
    Strikes s r.sessions (r.drop key s).sessions := by
  unfold Roster.drop
  split
  · next found =>
    have same : ((r.remove key).forgetLast key).sessions = r.sessions.filter fun e => e.1 ≠ key := by
      rw [Roster.forgetLast]
      split <;> rfl
    rw [same]
    exact remove found
  · exact refl s _

end Strikes

theorem tellExit_spec (s : SessionId) (watcher : Session.Watcher) (w : World) :
    Keeps A R [] w (w.tellExit s watcher) ∧ ∃ roster,
      Strikes s w.core.roster roster ∧ (w.tellExit s watcher).core = w.core.setRoster roster := by
  cases watcher with
  | manager =>
    have kept : Keeps A R [] w (w.setRoster (·.drop (w.session s).key s)) :=
      (Keeps.refl w).setWorkspace fun _ ht => .inl ht
    exact ⟨kept, _, Strikes.drop (w.session s).key s w.roster, core_setRoster _ w⟩
  | recorder fails =>
    have seen (x : Sight) : Keeps A R [] w (w.see x) :=
      (Keeps.refl w).aside rfl rfl rfl rfl rfl rfl rfl
    cases fails with
    | false => exact ⟨seen _, _, .refl s _, rfl⟩
    | true => exact ⟨seen _, _, .refl s _, rfl⟩

theorem tellExits_spec (s : SessionId) (watchers : List Session.Watcher) (w : World) :
    Keeps A R [] w (watchers.foldl (fun w watcher => w.tellExit s watcher) w) ∧
      ∃ roster, Strikes s w.core.roster roster ∧
        (watchers.foldl (fun w watcher => w.tellExit s watcher) w).core =
          w.core.setRoster roster := by
  induction watchers generalizing w with
  | nil => exact ⟨.refl w, _, .refl s _, rfl⟩
  | cons watcher rest ih =>
    obtain ⟨keeps, roster, strikes, core⟩ :=
      tellExit_spec (A := A) (R := R) s watcher w
    obtain ⟨keeps', roster', strikes', core'⟩ := ih (w.tellExit s watcher)
    rw [core] at strikes' core'
    exact ⟨keeps.trans keeps', roster', strikes.trans strikes', core'⟩

/-- A session whose connection has come to its end unasked. -/
def lost (reaper : TaskId) (x : Session) : Session :=
  { x.moveToStopped.shut with outbox := [], reaper := some reaper }

theorem connectionLost_stopping {s : SessionId} (h : (w.session s).stopping = true) :
    w.connectionLost s = w := by
  rw [connectionLost, if_pos h]

theorem connectionLost_spec {s : SessionId} (h : (w.session s).stopping = false) :
    Keeps A R [.session s (.shutdown Session.killGrace)] w (w.connectionLost s) ∧
      ∃ roster, Strikes s w.core.roster roster ∧ (w.connectionLost s).core =
        (w.core.setSession s (lost w.loop.tasks.length)).setRoster roster := by
  let stopped := w.setSession s fun x => { x.moveToStopped with outbox := [] }
  let closed := stopped.closeBus s
  obtain ⟨told, roster, strikes, core⟩ := tellExits_spec (A := A) (R := R) s
    (closed.session s).watchers closed
  have shut : Keeps A R [] stopped closed ∧ closed.core = stopped.core.setSession s Session.shut :=
    closeBus_spec s stopped
  have moved : Keeps A R [] w stopped := by
    refine (Keeps.refl w).noteSession s fun _ => ?_
    exact ⟨rfl, rfl⟩
  have all := (moved.trans shut.1).trans told
  have count : ((closed.session s).watchers.foldl (fun w watcher => w.tellExit s watcher)
      closed).loop.tasks.length = w.loop.tasks.length := length_tasks_of_ops all.ops
  have before : closed.core =
      w.core.setSession s fun x => { x.moveToStopped.shut with outbox := [] } := by
    have stopped_core : stopped.core =
        w.core.setSession s fun x => { x.moveToStopped with outbox := [] } :=
      core_setSession_eq (fun _ => by rfl) s w
    rw [shut.2, stopped_core, Core.setSession, Core.setSession, List.modify_modify_eq]
    rfl
  let heard := (closed.session s).watchers.foldl (fun w watcher => w.tellExit s watcher) closed
  have unfolded : w.connectionLost s =
      (heard.spawn (.session s (.shutdown Session.killGrace))).2.setSession s fun x =>
        { x with reaper := some heard.loop.tasks.length } := by
    rw [connectionLost, h]
    rfl
  have grown : (heard.spawn (.session s (.shutdown Session.killGrace))).2.loop.tasks.length =
      w.loop.tasks.length + 1 := length_tasks_of_ops (all.spawn _).ops
  rw [unfolded, count]
  refine ⟨(all.spawn _).setSession s (fun _ _ hc => .inl hc) ?_, roster, ?_, ?_⟩
  · intro x t ht
    cases ht
    exact .inr (.last (by simp) rfl)
  · have same : closed.core.roster = w.core.roster := by
      rw [before]
      rfl
    exact same ▸ strikes
  · have known : (heard.spawn (.session s (.shutdown Session.killGrace))).2.core =
        (w.core.setSession s fun x => { x.moveToStopped.shut with outbox := [] }).setRoster
          roster := by
      rw [← before, ← core]
      rfl
    have added := core_setSession_eq (f := fun x => { x with reaper := some w.loop.tasks.length })
      (g := fun x => { x with reaper := some w.loop.tasks.length }) (fun _ => rfl) s
      (heard.spawn (.session s (.shutdown Session.killGrace))).2
    rw [added, known, Core.setRoster, Core.setSession, Core.setSession, List.modify_modify_eq]
    rfl

end LanguageClient.World
