import LanguageClient.Proofs.World.Steady
import LanguageClient.Roster.Run

/-!
Readings of a world that concern the workspace alone. Connections, sessions and relays leave them as they
are, whatever becomes of these, and so does the roster but for the relays it attaches.
-/

namespace LanguageClient.World

open Schedule

/-- A reading that looks at neither sessions, the roster, the settings nor the shell, and of a relay at
its session only. -/
structure Offstage {α : Type} (φ : World → α) : Prop extends Steady φ where
  sessions : ∀ w xs, φ { w with sessions := xs } = φ w
  shell : ∀ w x, φ { w with shell := x } = φ w
  settings : ∀ w x, φ (w.setWorkspace fun ws => { ws with settings := x }) = φ w
  roster : ∀ w f, φ (w.setRoster f) = φ w
  relay : ∀ w r (f : Relay → Relay), (∀ x, (f x).session = x.session) → φ (w.setRelay r f) = φ w

namespace Offstage

variable {α : Type} {φ : World → α}
variable (b : BackendId) (k : ConnectionId) (s : SessionId) (r : RelayId) (c : CellId) (w : World)
variable (o : Outcome Result)

section Inbound

theorem setSession (h : Offstage φ) (f : Session → Session) : φ (w.setSession s f) = φ w :=
  h.sessions w _

theorem showError (h : Offstage φ) (message : String) : φ (w.showError message) = φ w := h.shell w _

theorem wakeTaker (h : Offstage φ) : φ (w.wakeTaker s) = φ w := by
  unfold World.wakeTaker
  split
  · exact h.setSession s w _
  · exact (h.release _ _).trans (h.setSession s w _)

theorem publish (h : Offstage φ) (e : Event) : φ (w.publish s e) = φ w := by
  unfold World.publish
  split
  · exact (h.wakeTaker s _).trans (h.setSession s w _)
  · rfl

theorem closeBus (h : Offstage φ) : φ (w.closeBus s) = φ w := by
  unfold World.closeBus
  split
  · rfl
  · exact (h.wakeTaker s _).trans (h.setSession s w _)

theorem hear (h : Offstage φ) (method params : Value) : φ (w.hear s method params) = φ w := by
  unfold World.hear
  split
  · split
    · exact h.publish s w _
    · rfl
  · rfl

theorem tellExit (h : Offstage φ) (watcher : Session.Watcher) : φ (w.tellExit s watcher) = φ w := by
  unfold World.tellExit
  split
  · exact h.roster w _
  · exact h.see w _
  · exact h.see w _

theorem connectionLost (h : Offstage φ) : φ (w.connectionLost s) = φ w := by
  unfold World.connectionLost
  split
  · rfl
  · refine (h.setSession s _ _).trans ((h.spawn _ _).trans ?_)
    refine (foldl_reading (fun w x => h.tellExit s w x) _ _).trans ?_
    exact (h.closeBus s _).trans (h.setSession s w _)

theorem endConnection (h : Offstage φ) : φ (w.endConnection k) = φ w := by
  have settled := (h.settleAll k (w.setConnection k fun x => { x with closed := true, pending := [] })
    (w.connection k).pending).trans (h.setConnection k w _)
  unfold World.endConnection
  dsimp only
  split
  · rfl
  split
  · exact (h.connectionLost _ _).trans settled
  · exact (h.see _ _).trans settled
  · exact settled

theorem notify (h : Offstage φ) (method params : Value) : φ (w.notify k method params) = φ w := by
  unfold World.notify
  split
  · exact h.hear _ w _ _
  · exact h.see w _

theorem dispatch (h : Offstage φ) {message : Entries} {w' : World} (same : w.dispatch k message = .ok w') :
    φ w' = φ w := by
  unfold World.dispatch at same
  dsimp only at same
  split at same
  · split at same
    · cases same
      rfl
    · exact h.respond k w same
  · cases same
    split
    · exact h.notify k w _ _
    · exact h.startAnswer k w _ _ _

theorem readOn (h : Offstage φ) (point : Wire.Point) : φ (w.readOn k point).2 = φ w := by
  have read := h.setBackend (w.connection k).backend w fun x =>
    { x with output := (Wire.read point (w.backend (w.connection k).backend).output).2 }
  unfold World.readOn
  dsimp only
  split
  · split
    · next same => exact (h.dispatch k _ same).trans read
    · exact (h.endConnection k _).trans read
  · exact read
  · exact read
  · exact (h.endConnection k _).trans read
  · exact (h.setBackend _ _ _).trans ((h.newCell _).trans read)

theorem resumeConnection (h : Offstage φ) (p : Connection.Stage) :
    φ (w.resumeConnection k p o).2 = φ w := by
  unfold World.resumeConnection
  split
  · exact h.drain k w
  · exact Steady.drained k w
  · exact h.sendNotification k w _ _
  · exact h.sendRequest k w _ _ _
  · rfl
  · exact h.setConnection k w _
  · exact h.setConnection k w _
  · exact h.readOn k w _
  · exact h.endConnection k w
  · exact h.answer k w _ _ _
  · rfl
  · exact h.see w _
  · rfl
  · exact h.sendAnswer k w _ _
  · rfl
  · rfl
  · exact h.closeConnection k w
  · exact h.stopAnswers k w
  · exact h.stopAnswers k w
  · exact (h.setBackend _ _ _).trans (h.endConnection k w)
  · rfl

end Inbound

section Session

theorem failStart (h : Offstage φ) : φ (w.failStart s) = φ w :=
  (h.closeBus s _).trans (h.setSession s w _)

theorem flush (h : Offstage φ) : φ (w.flush s k) = φ w := by
  have sent (kept : List (String × Value)) (w : World) :
      φ (kept.foldl (fun w n => w.write k (Connection.notification n.1 n.2)) w) = φ w :=
    foldl_reading (fun w _ => h.write k w _) kept w
  unfold World.flush
  exact (h.setSession s _ _).trans ((sent _ _).trans (h.setSession s w _))

theorem leaveTakers (h : Offstage φ) : φ (w.leaveTakers s c) = φ w := by
  have left := h.setSession s w fun x => { x with takers := x.takers.filter (· ≠ c) }
  unfold World.leaveTakers
  dsimp only
  split
  all_goals
    split
    · exact left
    · exact (h.wakeTaker s _).trans left

theorem startSession (h : Offstage φ) : φ (w.startSession s).2 = φ w := by
  unfold World.startSession
  split
  · rfl
  next session _ =>
  have moved : φ (w.setSession s fun _ => session) = φ w := h.setSession s w _
  dsimp only
  split
  · exact moved
  split
  · exact (h.failStart s _).trans moved
  have asked (folder : Option String) := (h.requestBackend _ session.command folder).trans moved
  split
  · exact asked _
  · exact (h.sleep _ _).trans (asked _)

theorem connect (h : Offstage φ) : φ (w.connect s b).2 = φ w :=
  (h.setSession s _ _).trans ((h.startReading _ _).trans (h.connections w _))

theorem launched (h : Offstage φ) : φ (w.launched s b).2 = φ w := by
  unfold World.launched
  split
  · exact h.failStart s w
  have begun : φ ((w.beginBackend b).setSession s fun x => { x with backend := some b }) = φ w :=
    (h.setSession s _ _).trans (h.setBackend b w _)
  dsimp only
  split
  · exact begun
  have connected := (h.connect b s _).trans begun
  split
  · exact connected
  · exact connected

theorem abandon (h : Offstage φ) (e : Failure) : φ (w.abandon s e).2 = φ w := by
  unfold World.abandon
  split
  · rfl
  split
  · rfl
  · exact h.setSession s w _

theorem completeStart (h : Offstage φ) : φ (w.completeStart s).2 = φ w := by
  unfold World.completeStart
  split
  · rfl
  have started := h.setSession s w fun x => { x with started := true }
  dsimp only
  split
  · exact started
  split
  · exact (h.setSession s _ _).trans started
  · exact (h.flush _ s _).trans started

theorem notifySession (h : Offstage φ) (method : String) (params : Value) :
    φ (w.notifySession s method params).2 = φ w := by
  unfold World.notifySession
  dsimp only
  split
  · exact h.setSession s w _
  split <;> rfl

theorem stopSession (h : Offstage φ) (timeout : Timeout) : φ (w.stopSession s timeout).2 = φ w := by
  unfold World.stopSession
  dsimp only
  split
  · rfl
  have stopping := h.setSession s w fun x => { x with stopping := true }
  split
  · exact stopping
  have stopped := (h.setSession s _ fun x => { x.moveToStopped with outbox := [] }).trans stopping
  split
  · exact stopped
  split
  · split <;> exact stopped
  · exact stopped

theorem takeEvent (h : Offstage φ) (taker : Session.Consumer) : φ (w.takeEvent s taker).2 = φ w := by
  unfold World.takeEvent
  split
  · exact (h.setSession s _ _).trans (h.newCell w)
  · next e? bus _ =>
    have taken : φ (w.setSession s fun x => { x with bus := bus }) = φ w := h.setSession s w _
    dsimp only
    split
    · exact (h.see _ _).trans taken
    · exact taken
    · exact (h.see _ _).trans taken
    · exact taken

theorem resumeSession (h : Offstage φ) (p : Session.Stage) : φ (w.resumeSession s p o).2 = φ w := by
  unfold World.resumeSession
  split
  · exact h.startSession s w
  · exact h.launched _ s w
  · exact Steady.callConnection s w _ _
  · exact h.abandon s w _
  · exact h.abandon s w _
  · exact h.completeStart s w
  · exact h.failStart s w
  · rfl
  · rfl
  · exact h.notifySession s w _ _
  · rfl
  · rfl
  · exact h.stopSession s w _
  · exact Steady.callConnection s w _ _
  · rfl
  · split <;> rfl
  · split <;> rfl
  · exact h.shutdown s w _
  · rfl
  · rfl
  · rfl
  · rfl
  · exact h.terminateSession s w
  · exact (h.awaitProcess s _ _ _).trans (h.killSession s w)
  · exact Steady.callConnection s w _ _
  · exact h.closeBus s w
  · exact h.takeEvent s w _
  · rfl
  · exact h.leaveTakers s _ w
  · rfl

end Session

section Relay

theorem decorate (h : Offstage φ) (uri items : Value) (kind : String)
    (item : Entries → Except Failure Decoration) : φ (w.decorate r uri items kind item).2 = φ w := by
  unfold World.decorate
  dsimp only
  split
  · rfl
  · rfl
  · exact h.shell w _

theorem runLocal (h : Offstage φ) (command : Relay.LocalCommand) (data : Value) :
    φ (w.runLocal command data).2 = φ w := by
  cases command with
  | configure => exact h.settings w _
  | fail => rfl
  | record | recordLater => exact h.see w _
  | arbitrary => exact (h.see _ _).trans (h.shell w _)

theorem runCommand (h : Offstage φ) (name data : Value) : φ (w.runCommand r name data).2 = φ w := by
  unfold World.runCommand
  split
  · rfl
  split
  · exact h.runLocal w _ data
  · exact h.shell w _

theorem showStatus (h : Offstage φ) (f : StatusIndicator → StatusIndicator) :
    φ ((w.setIndicator r f).showStatus r).2 = φ w :=
  (h.shell _ _).trans (h.relay w r _ fun _ => rfl)

theorem applyEvent (h : Offstage φ) (what : Happening) : φ (w.applyEvent r what).2 = φ w := by
  unfold World.applyEvent
  split
  · exact h.runCommand r w _ _
  · exact h.showStatus r w _
  · exact h.showStatus r w _
  · exact h.showStatus r w _
  · exact h.decorate r w _ _ _ _
  · exact h.decorate r w _ _ _ _
  · rfl

theorem dispatchEvent (h : Offstage φ) (e : Event) : φ (w.dispatchEvent r e) = φ w := by
  have applied := h.applyEvent r w e.what
  unfold World.dispatchEvent
  split
  · next same => rwa [same] at applied
  · next same =>
    rw [same] at applied
    exact (h.showError _ _).trans applied

theorem spanOf (h : Offstage φ) (what : Happening) : φ (w.spanOf r what).2 = φ w := by
  unfold World.spanOf
  dsimp only
  split
  · split
    · rfl
    split
    · rfl
    · exact h.shell w _
    · rfl
    · exact h.shell w _
  · rfl

theorem shown (h : Offstage φ) {w' : World} (same : w.shown o = .ok w') : φ w' = φ w := by
  unfold World.shown at same
  split at same
  · cases same
    rfl
  · split at same
    · cases same
      exact h.showError w _
    · cases same

theorem dispatchAfter (h : Offstage φ) (e : Event) (span : Nat) :
    φ (w.dispatchAfter r e span).2 = φ w := by
  cases span with
  | zero => exact h.dispatchEvent r w e
  | succ => rfl

theorem resumeRelay (h : Offstage φ) (p : Relay.Stage) : φ (w.resumeRelay r p o).2 = φ w := by
  unfold World.resumeRelay
  split
  · exact (h.dispatchAfter r _ _ _).trans (h.spanOf r w _)
  · exact h.dispatchAfter r w _ _
  · unfold closeRelay
    split
    · rfl
    split
    · rfl
    · exact h.onLoop w _
  · rfl
  · rfl
  · exact h.relay w r _ fun _ => rfl
  · split
    · next same => exact h.shown _ _ same
    · rfl
  · rfl
  · split
    · next same => exact h.shown _ _ same
    · rfl
  · rfl

end Relay

section Roster

theorem createSession (h : Offstage φ) (root : Option Root) : φ (w.createSession root).2 = φ w := by
  unfold World.createSession
  split
  · rfl
  · next settings _ =>
    have launches : φ (w.setRoster fun r =>
      { r with launcher := (w.roster.launcher.command settings).1 }) = φ w := h.roster w _
    dsimp only
    split
    · exact launches
    · exact (h.setSession _ _ _).trans ((h.sessions _ _).trans launches)

theorem reportLaunch (h : Offstage φ) (e : Failure) : φ (w.reportLaunch e).2 = φ w := by
  unfold World.reportLaunch
  split
  · exact h.showError w _
  · rfl

theorem startEnsured (h : Offstage φ) (root : Option Root) :
    let step : Step := match w.createSession root with
      | (.error e, w) => w.reportLaunch e
      | (.ok s, w) => (.call (.session s .start) (.roster (.sessionStarted (Session.keyOf root) s)),
        w.setRoster (·.insert (Session.keyOf root) s))
    φ step.2 = φ w := by
  have made := h.createSession w root
  dsimp only
  split
  · next e w' same =>
    rw [same] at made
    exact (h.reportLaunch w' e).trans made
  · next s w' same =>
    rw [same] at made
    exact (h.roster w' _).trans made

theorem ensure (h : Offstage φ) (root : Option Root) : φ (w.ensure root).2 = φ w := by
  unfold World.ensure
  dsimp only
  split
  · split
    · rfl
    · exact (h.startEnsured _ root).trans (h.roster w _)
  · exact h.startEnsured w root

theorem stopAll (h : Offstage φ) (timeout : Timeout) : φ (w.stopAll timeout).2 = φ w := by
  have emptied : φ (w.setRoster fun r => { r with sessions := [], lastStarted := none }) = φ w :=
    h.roster w _
  have stops := (h.spawnStops _ timeout w.roster.sessions).trans emptied
  unfold World.stopAll
  dsimp only
  split
  · exact emptied
  · cases timeout <;> exact (h.loop _ _).trans stops

/-- The steps of the roster leave such a reading alone if the relay does that comes with a new session. -/
theorem resumeRoster (h : Offstage φ) (hook : ∀ s w, φ (w.runHook s) = φ w) (p : Roster.Stage) :
    φ (w.resumeRoster p o).2 = φ w := by
  unfold World.resumeRoster
  split
  · exact h.ensure w _
  · unfold sessionStarted
    split
    · split
      · rfl
      · exact (hook _ _).trans (h.roster w _)
    · dsimp only
      split
      · exact (h.reportLaunch _ _).trans (h.roster w _)
      · exact h.reportLaunch w _
    · rfl
  · next root _ =>
    have left : φ (w.setRoster fun r => (r.remove (Session.keyOf root)).forgetLast (Session.keyOf root)) =
        φ w := h.roster w _
    unfold stopRoot
    dsimp only
    split
    · rfl
    · exact left
  · exact h.stopAll w _
  · next timer =>
    dsimp only
    cases timer with
    | none =>
      split
      · exact h.killLate w _
      · rfl
    | some id =>
      have stopped : φ (w.onLoop (·.stopTimer id)) = φ w := h.onLoop w _
      split
      · exact (h.killLate _ _).trans stopped
      · exact stopped
  · split <;> rfl
  · rfl

end Roster

end Offstage
end LanguageClient.World
