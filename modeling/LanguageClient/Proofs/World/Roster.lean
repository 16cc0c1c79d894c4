import LanguageClient.Proofs.World.Relay
import LanguageClient.Roster.Run

/-!
The steps of the roster: sessions get onto it and off it.
-/

namespace LanguageClient.World

open Schedule

variable {A : Licence} {R : CellId → Prop} {begun : List Frame}
variable {w w' : World} {f : Frame} {o : Outcome Result}

theorem keeps_setRoster (f : Roster → Roster) (w : World) :
    Keeps A R [] w (w.setRoster f) :=
  (Keeps.refl w).setWorkspace fun _ ht => .inl ht

theorem quiet_setRoster {f : Roster → Roster} (h : (f w.roster).sessions = w.roster.sessions) :
    Quiet A R [] w (w.setRoster f) := by
  refine ⟨keeps_setRoster f w, (core_setRoster f w).trans ?_⟩
  rw [h]
  rfl

/-- A session is made, or nothing comes of it. -/
theorem createSession_spec (root : Option Root) (w : World) :
    (∃ e, (w.createSession root).1 = .error e ∧
      Quiet A R [] w (w.createSession root).2) ∨
    ((w.createSession root).1 = .ok w.sessions.length ∧
      Keeps A R [] w (w.createSession root).2 ∧
      (w.createSession root).2.core = { w.core with
        sessions := w.core.sessions ++ [(Session.make root [] .never 0).core] }) := by
  unfold createSession
  split
  · next e _ => exact .inl ⟨e, rfl, .refl w⟩
  · next settings _ =>
    have taken : Quiet A R [] w (w.setRoster fun r =>
        { r with launcher := (w.roster.launcher.command settings).1 }) := quiet_setRoster rfl
    dsimp only
    split
    · next e _ => exact .inl ⟨e, rfl, taken⟩
    · next command _ =>
      right
      let x := Session.make root command (.ofSeconds w.workspace.config.requestTimeout)
        w.workspace.config.eventQueueSize
      let w₁ := w.setRoster fun r => { r with launcher := (w.roster.launcher.command settings).1 }
      have made : Keeps A R [] w (w₁.addSession x).2 := by
        refine taken.keeps.extend rfl rfl rfl (fun _ => .inl rfl) ?_ (fun _ => .inl rfl)
          (fun _ => .inl rfl)
        intro s
        refine (getD_concat w.sessions x default s).imp_right ?_
        rintro ⟨-, fresh⟩
        exact ⟨congrArg Session.takers fresh, congrArg Session.reaper fresh⟩
      refine ⟨rfl, made.noteSession _ fun _ => ?_, ?_⟩
      · exact ⟨rfl, rfl⟩
      · refine (core_setSession (fun _ => by rfl) _ _).trans ((core_addSession x w₁).trans ?_)
        rw [taken.core]
        rfl

theorem reportLaunch_spec (e : Failure) (w : World) :
    ∃ o' w', w.reportLaunch e = (.done o', w') ∧ Calm o' ∧ Quiet A R [] w w' := by
  unfold reportLaunch
  split
  · exact ⟨_, _, rfl, calm_ok _, quiet_showError _ w⟩
  · next other => exact ⟨_, w, rfl, calm_error fun root reason => other root reason, .refl w⟩

/-- The registered session that does not run loses its place before a new one gets it. -/
theorem startEnsured_turn (root : Option Root) (r : Result)
    (free : ∀ s, lookup (Session.keyOf root) w.core.roster = some s → w.isRunning s = false)
    (kept : Keeps (w.Answers (.roster (.ensure root))) R [] w w')
    (count : w'.sessions.length = w.sessions.length)
    (core : w'.core = w.core ∨ ∃ s, lookup (Session.keyOf root) w.core.roster = some s ∧
      w'.core = w.core.setRoster (w.core.roster.filter fun e => e.1 ≠ Session.keyOf root)) :
    Turn R w (.roster (.ensure root)) (.ok r) []
      (match w'.createSession root with
      | (.error e, w) => w.reportLaunch e
      | (.ok s, w) => (.call (.session s .start) (.roster (.sessionStarted (Session.keyOf root) s)),
        w.setRoster (·.insert (Session.keyOf root) s))) := by
  rcases createSession_spec (A := w.Answers (.roster (.ensure root))) (R := R) root w'
    with ⟨e, failed, quiet⟩ | ⟨made, kept', core'⟩
  · obtain ⟨o', w'', same, calm, shown⟩ := reportLaunch_spec
      (A := w.Answers (.roster (.ensure root))) (R := R) e (w'.createSession root).2
    rw [show w'.createSession root = (.error e, (w'.createSession root).2) from
      Prod.ext failed rfl]
    dsimp only
    rw [same]
    have all := quiet.trans shown
    rcases core with unchanged | ⟨s, found, struck⟩
    · exact .done ⟨kept.trans all.keeps, all.core.trans unchanged⟩ fun _ => calm
    · exact .shows (kept.trans all.keeps) (all.core.trans struck)
        (.forgets found (free s found) calm) (fun _ _ => by simp) fun _ hg => nomatch hg
  · rw [show w'.createSession root = (.ok w'.sessions.length, (w'.createSession root).2) from
      Prod.ext made rfl]
    dsimp only
    rw [count]
    refine .shows (kept.trans (kept'.trans (keeps_setRoster _ _))) ?_ (.creates free rfl)
      (fun _ _ => by simp) (List.forall_mem_cons.2 ⟨rfl, List.forall_mem_singleton.2 rfl⟩)
    have roster : (w'.createSession root).2.roster.sessions = w'.core.roster := by
      have known := congrArg Core.roster core'
      exact known
    rw [core_setRoster, core', Roster.insert, Roster.remove, roster]
    rcases core with unchanged | ⟨s, -, struck⟩
    · rw [unchanged]
      rfl
    · rw [struck]
      simp only [Core.setRoster, List.filter_filter, Bool.and_self]

theorem ensure_turn (root : Option Root) (r : Result) (w : World) :
    Turn R w (.roster (.ensure root)) (.ok r) [] (w.ensure root) := by
  unfold ensure
  dsimp only
  split
  · next s found =>
    split
    · exact .done (.refl w) fun _ => calm_ok _
    · next gone =>
      refine startEnsured_turn root r ?_ (keeps_setRoster _ w) rfl (.inr ⟨s, found, core_setRoster _ w⟩)
      intro s' found'
      have same : some s = some s' := found.symm.trans found'
      cases same
      exact Bool.eq_false_iff.2 gone
  · next absent =>
    refine startEnsured_turn root r ?_ (.refl w) rfl (.inl rfl)
    intro s found
    have none : (none : Option SessionId) = some s := absent.symm.trans found
    cases none

/-- A task is begun and known to the data from then on. -/
theorem spawn_spec (h : Quiet A R begun w w') (g : Frame) :
    Quiet A R (begun ++ [g]) w (w'.spawn g).2 ∧
      ∀ drops, (drops = true → g.isErrand = true) → Begun (begun ++ [g]) w drops (w'.spawn g).1 :=
  ⟨⟨h.keeps.spawn g, h.core⟩, fun _ errand => .last errand (length_tasks_of_ops h.keeps.ops)⟩

theorem relay_addRelay (x : Relay) (w : World) : (w.addRelay x).2.relay w.relays.length = x := by
  simp [addRelay, relay]

/-- A relay knows the task that takes events for it. -/
theorem quiet_startRelay (h : Quiet A R begun w w') (r : RelayId) :
    Quiet A R (begun ++ [.session (w'.relay r).session (.consume (.relay r))]) w
      (w'.startRelay r) := by
  obtain ⟨begun_, known⟩ := spawn_spec h (.session (w'.relay r).session (.consume (.relay r)))
  refine ⟨begun_.keeps.setRelay r fun x t ht => ?_, begun_.core⟩
  cases ht
  exact .inr (known true fun _ => rfl)

theorem quiet_addSessionRelay (s : SessionId) (w : World) :
    Quiet A R [.session s (.consume (.relay w.relays.length)), .workspace (.reportAll w.relays.length)]
      w (w.addSessionRelay s) := by
  let x := Relay.make s [(Workspace.configCommand, .configure)] Workspace.statusClickCommand
  let r := w.relays.length
  let key := (w.session s).key
  let w₁ := (w.addRelay x).2.setWorkspace fun ws =>
    { ws with relays := Workspace.putRelay key r ws.relays }
  have added : Quiet A R [] w (w.addRelay x).2 := by
    refine ⟨(Keeps.refl w).extend rfl rfl rfl (fun _ => .inl rfl) (fun _ => .inl rfl)
      (fun _ => .inl rfl) ?_, rfl⟩
    intro r'
    refine (getD_concat w.relays x default r').imp_right ?_
    rintro ⟨-, fresh⟩
    exact congrArg Relay.task fresh
  have put : Quiet A R [] (w.addRelay x).2 w₁ := by
    refine quiet_setWorkspace (fun _ t ht => ?_) (fun _ => ?_) _
    · exact ht
    · rfl
  let first := Frame.session (w₁.relay r).session (.consume (.relay r))
  have first_eq : first = .session s (.consume (.relay r)) := by
    have same : w₁.relay r = x := relay_addRelay x w
    simp only [first, same]
    rfl
  let w₂ := w₁.startRelay r
  have running : Quiet A R [first] w w₂ := quiet_startRelay (added.trans put) r
  obtain ⟨begun', known'⟩ := spawn_spec running (.workspace (.reportAll r))
  let w₃ := (w₂.spawn (.workspace (.reportAll r))).2
  let t := (w₂.spawn (.workspace (.reportAll r))).1
  have reported : Quiet A R [first, .workspace (.reportAll r)] w
      (w₃.setWorkspace fun ws => { ws with reports := ws.reports ++ [t] }) := by
    refine ⟨begun'.keeps.setWorkspace fun u hu => ?_,
      (core_setWorkspace (fun _ => by rfl) w₃).trans begun'.core⟩
    refine (List.mem_append.1 hu).imp_right fun new => ?_
    rw [List.mem_singleton.1 new]
    exact known' true fun _ => rfl
  have watched : Quiet A R [first, .workspace (.reportAll r)] w (w.addSessionRelay s) :=
    ⟨reported.keeps.aloof (f := fun l => l.watch (l.taskCell t) (.call (.reportDone t)))
      fun c => .watch _ rfl (by simp [Waker.released?]) _, reported.core⟩
  exact first_eq ▸ watched

/-- From the roster on everything is plain that is not about a session's start or stop. -/
theorem follows_of_roster {p : Roster.Stage} {g : Frame} (aside : g.isAside = true) :
    (Frame.roster p).Follows g :=
  .of_idle ⟨Frame.isPlain_of_aside aside, (fun h => nomatch h),
    fun _ k h => h ▸ Frame.isLocal_of_aside aside k⟩ (Frame.isTaking_of_aside aside)

theorem runHook_spec (s : SessionId) (w : World) :
    ∃ begun : List Frame,
      (∀ g ∈ begun, ∀ key, (Frame.roster (.sessionStarted key s)).Opens w.relays.length g) ∧
      Quiet A R begun w (w.runHook s) := by
  unfold runHook
  split
  · exact ⟨[], (fun _ hg => nomatch hg), .refl w⟩
  · exact ⟨[], (fun _ hg => nomatch hg), .refl w⟩
  · refine ⟨_, List.forall_mem_cons.2 ⟨fun key => ?_, List.forall_mem_singleton.2 fun key => ?_⟩,
      quiet_addSessionRelay s w⟩
    · refine ⟨⟨rfl, (fun h => nomatch h), fun _ _ h => h⟩, rfl, trivial, rfl, rfl, fun s' x same => ?_⟩
      cases same
      exact ⟨⟨key, rfl⟩, rfl⟩
    · exact ⟨(follows_of_roster rfl).toSucceeds, rfl, trivial, rfl, rfl, fun _ _ same => nomatch same⟩

theorem sessionStarted_turn (key : String) (s : SessionId) (o : Outcome Result) (w : World) :
    ∃ begun, Turn R w (.roster (.sessionStarted key s)) o begun (w.sessionStarted key s o) := by
  unfold sessionStarted
  split
  · split
    · exact ⟨[], .done (.refl w) fun _ => calm_ok _⟩
    · have last : Quiet (w.Answers (.roster (.sessionStarted key s))) R [] w
          (w.setRoster fun r => { r with lastStarted := some key }) := quiet_setRoster rfl
      obtain ⟨begun, begun_, hooked⟩ := runHook_spec
        (A := w.Answers (.roster (.sessionStarted key s))) (R := R) s
        (w.setRoster fun r => { r with lastStarted := some key })
      exact ⟨begun, .done_begun (last.trans hooked) (fun g hg => begun_ g hg key) fun _ => calm_ok _⟩
  · next root reason =>
    refine ⟨[], ?_⟩
    dsimp only
    split
    · next found =>
      obtain ⟨o', w', same, calm, shown⟩ := reportLaunch_spec
        (A := w.Answers (.roster (.sessionStarted key s))) (R := R)
        (.launch root reason) (w.setRoster (·.remove key))
      rw [same]
      exact .shows ((keeps_setRoster _ w).trans shown.keeps)
        (shown.core.trans (core_setRoster _ w)) (.strikes found calm) (fun _ _ => by simp)
        fun _ hg => nomatch hg
    · obtain ⟨o', w', same, calm, shown⟩ := reportLaunch_spec
        (A := w.Answers (.roster (.sessionStarted key s))) (R := R)
        (.launch root reason) w
      rw [same]
      exact .done shown fun _ => calm
  · exact ⟨[], .fail_on w⟩

theorem stopRoot_turn (root : Option Root) (r : Result) (w : World) :
    Turn R w (.roster (.stop root)) (.ok r) [] (w.stopRoot root) := by
  unfold stopRoot
  dsimp only
  split
  · exact .finish (.refl w)
  · next s found =>
    refine .shows (keeps_setRoster _ w) ?_ (.leaves found) (fun _ _ => by simp)
      (List.forall_mem_singleton.2 rfl)
    rw [core_setRoster, Roster.forgetLast]
    split <;> rfl

theorem spawnStops_spec (timeout : Timeout) (sessions : List (String × SessionId)) (w : World) :
    Quiet A R (sessions.map fun e => .session e.2 (.stop timeout)) w
      (spawnStops timeout sessions w).2 ∧
    (spawnStops timeout sessions w).1 =
      (sessions.map (·.2)).mapIdx fun i s => (w.loop.tasks.length + i, s) := by
  induction sessions generalizing w with
  | nil => exact ⟨.refl w, rfl⟩
  | cons e rest ih =>
    obtain ⟨begun, -⟩ := spawn_spec (.refl w : Quiet A R [] w w)
      (.session e.2 (.stop timeout))
    obtain ⟨quiet, same⟩ := ih (w.spawn (.session e.2 (.stop timeout))).2
    have grown : (w.spawn (.session e.2 (.stop timeout))).2.loop.tasks.length =
        w.loop.tasks.length + 1 := length_tasks_of_ops begun.keeps.ops
    refine ⟨begun.trans quiet, ?_⟩
    rw [grown] at same
    rw [List.map_cons, List.mapIdx_cons]
    refine List.cons_eq_cons.2 ⟨rfl, same.trans ?_⟩
    simp only [Nat.add_assoc, Nat.add_comm 1]

/-- Stops have begun; all of them are waited for, no longer than the limit. -/
theorem awaitStops_turn {limit : Timeout} {r : Result} {stops : List (TaskId × SessionId)}
    {members : List CellId} {timer : Option TimerId} {l : Loop Frame Result Notice}
    (kept : Keeps (w.Answers (.roster (.stopAll limit))) R
      (w.core.roster.map fun e => .session e.2 (.stop limit)) w w')
    (core : w'.core = w.core.setRoster [])
    (stops_ : stops = (w.core.roster.map (·.2)).mapIdx fun i s => (w.loop.tasks.length + i, s))
    (step : Loop.Around Calm R (w.Answers (.roster (.stopAll limit))).guards w'.loop.cells.length
      (w'.loop.countdown members).2 l)
    (still : ∀ c, l.outcome? c = (w'.loop.countdown members).2.outcome? c) :
    ∃ begun, Turn R w (.roster (.stopAll limit)) (.ok r) begun
      (.await w'.loop.cells.length (.roster (.stopsOver stops timer)), { w' with loop := l }) := by
  have low : w.loop.cells.length ≤ w'.loop.cells.length := kept.ops.length_cells
  have counted : Loop.Around Calm R (w.Answers (.roster (.stopAll limit))).guards
      w'.loop.cells.length w'.loop
      (w'.loop.countdown members).2 := .countdown members w'.loop
  have longer : w'.loop.cells.length < (w'.loop.countdown members).2.cells.length := by
    rw [Loop.length_cells_countdown]
    exact Nat.lt_succ_self _
  have inside : w'.loop.cells.length < l.cells.length :=
    Nat.lt_of_lt_of_le longer step.ops.length_cells
  have made : Made w.loop.cells.length R w'.loop.cells.length { w' with loop := l } := by
    refine ⟨low, inside, fun k hk => ?_⟩
    have kind : l.kind? w'.loop.cells.length = some (.countdown 0) :=
      (step.ops.kind? longer).trans (Loop.kind?_countdown members w'.loop)
    rw [kind] at hk
    cases hk
    exact ⟨fun _ => by simp, fun _ hm => nomatch hm⟩
  have all : Keeps (w.Answers (.roster (.stopAll limit))) R
      (w.core.roster.map fun e => .session e.2 (.stop limit)) w { w' with loop := l } :=
    kept.around (f := fun _ => l) (counted.trans step) (made.fresh (Nat.le_refl _)) rfl
      fun o settled => by
        rw [still, Loop.outcome?_countdown_self] at settled
        cases settled
  refine ⟨_, all, ⟨?_, List.forall_mem_singleton.2 fun _ hc => nomatch hc⟩, ?_⟩
  · intro c g same
    cases same
    exact .inr (.inr made)
  · refine Eq.subst (motive := fun x => Change w _ _ _ _ x) core.symm ?_
    exact .stopsAll stops_

theorem stopAll_turn (limit : Timeout) (r : Result) (w : World) :
    ∃ begun, Turn R w (.roster (.stopAll limit)) (.ok r) begun (w.stopAll limit) := by
  let w₁ := w.setRoster fun r => { r with sessions := [], lastStarted := none }
  obtain ⟨spawned, stops_⟩ := spawnStops_spec (A := w.Answers (.roster (.stopAll limit)))
    (R := R) limit w.roster.sessions w₁
  have kept : Keeps (w.Answers (.roster (.stopAll limit))) R
      (w.core.roster.map fun e => .session e.2 (.stop limit)) w
      (spawnStops limit w.roster.sessions w₁).2 := (keeps_setRoster _ w).trans spawned.keeps
  have core : (spawnStops limit w.roster.sessions w₁).2.core = w.core.setRoster [] :=
    spawned.core.trans (core_setRoster _ w)
  unfold stopAll
  dsimp only
  split
  · next empty =>
    exact ⟨[], .finish (quiet_setRoster (List.isEmpty_iff.1 empty).symm)⟩
  · cases limit with
    | never => exact awaitStops_turn kept core stops_ (.refl _ _) fun _ => rfl
    | after span =>
      exact awaitStops_turn kept core stops_
        (.setTimer span (fun _ same => (Alarm.release.inj same).symm) (.inr ⟨_, rfl⟩) _)
        fun c => Loop.outcome?_setTimer c span _ _

/-- Processes that do not end in time are killed, and their stops given up. -/
theorem quiet_kills {stops : List (TaskId × SessionId)}
    (h : ∀ stop ∈ stops, R (w.loop.taskCell stop.1))
    (inside : ∀ c, R c → c < w.loop.cells.length) :
    Quiet A R [] w
      (stops.foldl (fun w stop => (w.killSession stop.2).onLoop (·.cancelTask stop.1)) w) := by
  induction stops generalizing w with
  | nil => exact .refl w
  | cons stop rest ih =>
    obtain ⟨first, others⟩ := List.forall_mem_cons.1 h
    have killed : Quiet A R [] w (w.killSession stop.2) := quiet_killSession _ w
    have given : Quiet A R [] w
        ((w.killSession stop.2).onLoop (·.cancelTask stop.1)) :=
      ⟨killed.keeps.cancelTask (reach_taskCell killed.keeps.ops inside first), killed.core⟩
    refine given.trans (ih ?_ ?_)
    · exact fun stop hs => reach_taskCell given.keeps.ops inside (others stop hs)
    · exact fun c hc => Nat.lt_of_lt_of_le (inside c hc) given.keeps.ops.length_cells

theorem killLate_turn {stops : List (TaskId × SessionId)}
    (h : Quiet (w.Answers f) R [] w w') (inside : ∀ c, R c → c < w.loop.cells.length)
    (known : ∀ stop ∈ stops, R (w.loop.taskCell stop.1)) (follows : f.Follows .pass)
    (offers : w.Offers f .loose) :
    Turn R w f o [] (w'.killLate stops) := by
  have inside' : ∀ c, R c → c < w'.loop.cells.length := fun c hc =>
    Nat.lt_of_lt_of_le (inside c hc) h.keeps.ops.length_cells
  have late : ∀ stop ∈ stops.filter fun stop => !w'.loop.taskDone stop.1,
      R (w'.loop.taskCell stop.1) := by
    intro stop hs
    exact reach_taskCell h.keeps.ops inside (known stop (List.mem_filter.1 hs).1)
  have killed := quiet_kills (A := w.Answers f) late inside'
  unfold killLate
  dsimp only
  split
  · exact .finish (h.trans killed)
  · have known (t : TaskId) (ht : t ∈ (stops.filter fun stop => !w'.loop.taskDone stop.1).map (·.1)) :
        R (((stops.filter fun stop => !w'.loop.taskDone stop.1).foldl
          (fun w stop => (w.killSession stop.2).onLoop (·.cancelTask stop.1)) w').loop.taskCell t) := by
      obtain ⟨stop, hs, rfl⟩ := List.mem_map.1 ht
      exact reach_taskCell killed.keeps.ops inside' (late stop hs)
    obtain ⟨gathered, made⟩ := quiet_gather (A := w.Answers f) (R := R) offers known
    refine .await ((h.trans killed).trans gathered) (.inr (.inr ?_)) follows (fun _ hd => nomatch hd)
      fun _ => trivial
    exact ⟨Nat.le_trans (h.trans killed).keeps.ops.length_cells made.new, made.inside,
      made.members⟩

theorem stopsOver_spec (stops : List (TaskId × SessionId)) (timer : Option TimerId)
    (o : Outcome Result) (w : World) :
    ∃ w', Quiet (w.Answers (.roster (.stopsOver stops timer))) R [] w w' ∧
      w.resumeRoster (.stopsOver stops timer) o = match o with
        | .ok _ => w'.killLate stops
        | .error e => w'.fail e := by
  cases timer with
  | none => exact ⟨w, .refl w, rfl⟩
  | some id =>
    exact ⟨_, ⟨(Keeps.refl w).aloof fun c => .stopTimer id rfl c w.loop, rfl⟩, rfl⟩

theorem resumeRoster_turn {p : Roster.Stage} {o : Outcome Result} {w : World}
    (reaches : w.Reaches (.roster p) R) :
    ∃ begun, Turn R w (.roster p) o begun (w.resumeRoster p o) := by
  cases p with
  | sessionStarted key s => exact sessionStarted_turn key s o w
  | stopsOver stops timer =>
    obtain ⟨w', quiet, same⟩ := stopsOver_spec stops timer o w
    rw [same]
    cases o with
    | ok r =>
      refine ⟨[], killLate_turn quiet reaches.inside (fun stop hs => ?_) (follows_of_roster rfl) rfl⟩
      exact reaches.lates stop.1 (List.mem_map_of_mem hs)
    | error e => exact ⟨[], .fail quiet fun easy => easy.outcome⟩
  | ensure root =>
    cases o with
    | ok r => exact ⟨[], ensure_turn root r w⟩
    | error e => exact ⟨[], .fail_on w⟩
  | stop root =>
    cases o with
    | ok r => exact ⟨[], stopRoot_turn root r w⟩
    | error e => exact ⟨[], .fail_on w⟩
  | stopAll limit =>
    cases o with
    | ok r => exact stopAll_turn limit r w
    | error e => exact ⟨[], .fail_on w⟩
  | notify root method params =>
    cases o with
    | error e => exact ⟨[], .fail_on w⟩
    | ok r =>
      refine ⟨[], ?_⟩
      rw [resumeRoster]
      split
      · exact .goto (.refl w) (follows_of_roster rfl) rfl fun _ => trivial
      · exact .done (.refl w) fun _ => calm_ok _

end LanguageClient.World
