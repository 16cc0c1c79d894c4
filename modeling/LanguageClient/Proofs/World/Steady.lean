import LanguageClient.World.Act

/-!
Readings of a world that look at neither its loop, its backends nor its connections. They are kept by
whatever backends do, by whatever is written to them, and by every wait.
-/

namespace LanguageClient.World

open Schedule

/-- A reading of worlds that has nothing to do with who runs, the loop, backends, connections and the
record. -/
structure Steady {α : Type} (φ : World → α) : Prop where
  loop : ∀ w l, φ { w with loop := l } = φ w
  current : ∀ w run, φ { w with current := run } = φ w
  backends : ∀ w bs, φ { w with backends := bs } = φ w
  plans : ∀ w ps, φ { w with plans := ps } = φ w
  connections : ∀ w ks, φ { w with connections := ks } = φ w
  sights : ∀ w xs, φ { w with sights := xs } = φ w

theorem foldl_reading {α β : Type} {φ : World → β} {f : World → α → World}
    (h : ∀ w x, φ (f w x) = φ w) (xs : List α) (w : World) : φ (xs.foldl f w) = φ w := by
  induction xs generalizing w with
  | nil => rfl
  | cons x xs ih => exact (ih _).trans (h w x)

namespace Steady

variable {α : Type} {φ : World → α}
variable (b : BackendId) (k : ConnectionId) (s : SessionId) (c : CellId) (t : TaskId) (w : World)

section Backends

theorem onLoop (h : Steady φ) (f : Loop Frame Result Notice → Loop Frame Result Notice) :
    φ (w.onLoop f) = φ w := h.loop w _

theorem setBackend (h : Steady φ) (f : Backend → Backend) : φ (w.setBackend b f) = φ w :=
  h.backends w _

theorem setConnection (h : Steady φ) (f : Connection → Connection) :
    φ (w.setConnection k f) = φ w := h.connections w _

theorem release (h : Steady φ) : φ (w.release c) = φ w := h.onLoop w _

theorem releaseAll (h : Steady φ) (cs : List CellId) : φ (w.releaseAll cs) = φ w :=
  foldl_reading (fun w c => h.release c w) cs w

theorem newCell (h : Steady φ) : φ w.newCell.2 = φ w := h.loop w _

theorem spawn (h : Steady φ) (f : Frame) : φ (w.spawn f).2 = φ w := h.loop w _

theorem sleep (h : Steady φ) (span : Int) : φ (w.sleep span).2 = φ w := h.loop w _

theorem gather (h : Steady φ) (tasks : List TaskId) : φ (w.gather tasks).2 = φ w := h.loop w _

theorem wakeReaders (h : Steady φ) : φ (w.wakeReaders b) = φ w :=
  (h.releaseAll _ _).trans (h.setBackend b w _)

theorem feed (h : Steady φ) (bytes : Text.Bytes) : φ (w.feed b bytes) = φ w := by
  unfold World.feed
  dsimp only
  split
  · rfl
  · exact (h.wakeReaders b _).trans (h.setBackend b w _)

theorem endOutput (h : Steady φ) : φ (w.endOutput b) = φ w :=
  (h.wakeReaders b _).trans (h.setBackend b w _)

theorem unstallInput (h : Steady φ) : φ (w.unstallInput b) = φ w :=
  (h.releaseAll _ _).trans (h.setBackend b w _)

theorem exit (h : Steady φ) (code : Int) (endsOutput : Bool) :
    φ (w.exit b code endsOutput) = φ w := by
  unfold World.exit
  dsimp only
  split
  · rfl
  split
  · exact (h.endOutput b _).trans ((h.releaseAll _ _).trans (h.setBackend b w _))
  · exact (h.releaseAll _ _).trans (h.setBackend b w _)

theorem reply (h : Steady φ) (id : Value) (x : Backend.Reply) : φ (w.reply b id x) = φ w := by
  cases x with
  | accept => exact h.feed b w _
  | reject e => exact h.feed b w _
  | silence => rfl
  | leave => exact h.exit b w _ _

theorem react (h : Steady φ) (method : String) (id : Value) : φ (w.react b method id) = φ w := by
  unfold World.react
  dsimp only
  split
  · exact (h.reply b _ _ _).trans (h.setBackend b w _)
  split
  · exact (foldl_reading (fun w message => h.feed b w _) _ _).trans (h.setBackend b w _)
  split
  · exact (h.reply b _ _ _).trans (h.setBackend b w _)
  split
  · split
    · exact (h.exit b _ _ _).trans (h.setBackend b w _)
    · exact h.setBackend b w _
  · exact h.setBackend b w _

theorem send (h : Steady φ) (message : Value) : φ (w.send b message) = φ w := by
  unfold World.send
  split
  · rfl
  dsimp only
  split
  · exact h.setBackend b w _
  split
  · exact (h.react b _ _ _).trans (h.setBackend b w _)
  · exact h.setBackend b w _

theorem write (h : Steady φ) (message : Value) : φ (w.write k message) = φ w := h.send _ w message

theorem undergo (h : Steady φ) (x : Backend.Reaction) (code : Int) :
    φ (w.undergo b x code).2 = φ w := by
  cases x with
  | leave => exact h.exit b w code true
  | stay => rfl
  | gone => exact h.exit b w 0 true

theorem terminate (h : Steady φ) : φ (w.terminate b).2 = φ w := by
  unfold World.terminate
  dsimp only
  split
  · exact h.setBackend b w _
  · exact (h.undergo b _ _ _).trans (h.setBackend b w _)

theorem killBackend (h : Steady φ) : φ (w.killBackend b) = φ w := by
  unfold World.killBackend
  dsimp only
  split
  · rfl
  · exact (h.undergo b _ _ _).trans (h.setBackend b w _)

theorem killSession (h : Steady φ) : φ (w.killSession s) = φ w := by
  unfold World.killSession
  split
  · exact h.killBackend _ w
  · rfl

theorem awaitExit (h : Steady φ) : φ (w.awaitExit b).2 = φ w := by
  unfold World.awaitExit
  dsimp only
  split
  · exact (h.release _ _).trans (h.newCell w)
  · exact (h.setBackend b _ _).trans (h.newCell w)

theorem requestBackend (h : Steady φ) (command : List String) (folder : Option String) :
    φ (w.requestBackend command folder).2 = φ w :=
  (h.plans { w with backends := w.backends ++ [_] } (w.plans.drop 1)).trans (h.backends w _)

end Backends

section Connections

theorem startReading (h : Steady φ) : φ (w.startReading k) = φ w :=
  (h.setConnection k _ _).trans (h.spawn w _)

theorem see (h : Steady φ) (x : Sight) : φ (w.see x) = φ w := h.sights w _

theorem startAnswer (h : Steady φ) (id method params : Value) :
    φ (w.startAnswer k id method params) = φ w :=
  (h.onLoop _ _).trans ((h.setConnection k _ _).trans (h.spawn w _))

theorem settleAll (h : Steady φ) (pending : List (Nat × CellId)) :
    φ (pending.foldl (fun w p => w.onLoop (·.settle p.2 (.error (w.ended k)))) w) = φ w :=
  foldl_reading (fun w _ => h.onLoop w _) pending w

theorem cancelAll (h : Steady φ) (tasks : List TaskId) :
    φ (tasks.foldl (fun w t => w.onLoop (·.cancelTask t)) w) = φ w :=
  foldl_reading (fun w _ => h.onLoop w _) tasks w

theorem respond (h : Steady φ) {id : Value} {message : Entries} {w' : World}
    (told : w.respond k id message = .ok w') : φ w' = φ w := by
  unfold World.respond at told
  split at told
  · cases told
  split at told
  · cases told
    rfl
  split at told
  · cases told
    rfl
  split at told
  · next e _ =>
    cases known : Failure.ofResponse (if e.truthy then e else .map []) with
    | error _ =>
      rw [known] at told
      cases told
    | ok f =>
      rw [known] at told
      cases told
      exact h.loop w _
  · cases told
    exact h.loop w _

theorem unguard (h : Steady φ) (timer : TimerId) : φ (w.unguard timer).2 = φ w := by
  unfold World.unguard
  split
  · exact h.loop w _
  · exact h.loop w _

theorem giveUp (h : Steady φ) : φ (w.giveUp c).2 = φ w := h.loop w _

theorem startWait (h : Steady φ) (timeout : Timeout) : φ (w.startWait t c timeout).2 = φ w := by
  unfold World.startWait
  split
  · rfl
  split
  · exact h.loop w _
  split
  · rfl
  · exact h.giveUp c w

theorem endWait (h : Steady φ) (timer : TimerId) (cancels : Nat) (o : Outcome Result) :
    φ (w.endWait t timer cancels o).2 = φ w := by
  have taken := h.unguard w timer
  unfold World.endWait
  split
  · next w' same =>
    rw [same] at taken
    exact taken
  · next w' same =>
    rw [same] at taken
    split <;> exact (h.onLoop w' _).trans taken

theorem resumeWait (h : Steady φ) (p : Wait) (o : Outcome Result) :
    φ (w.resumeWait t p o).2 = φ w := by
  unfold World.resumeWait
  split
  · exact h.startWait _ t w _
  · exact h.endWait t w _ _ _
  · split <;> rfl
  · rfl

theorem answer (h : Steady φ) (id method params : Value) :
    φ (w.answer k id method params).2 = φ w := by
  unfold World.answer
  dsimp only
  split
  · rfl
  split
  · rfl
  · rfl
  · rfl
  · rfl
  · exact h.sleep w _
  · exact h.newCell w

theorem drain (h : Steady φ) : φ (w.drain k).2 = φ w := by
  unfold World.drain
  dsimp only
  split
  · exact (h.setBackend _ _ _).trans (h.newCell w)
  · rfl

theorem drained : φ (w.drained k).2 = φ w := by
  unfold World.drained
  split <;> rfl

theorem sendNotification (h : Steady φ) (method : String) (params : Value) :
    φ (w.sendNotification k method params).2 = φ w := by
  unfold World.sendNotification
  split
  · rfl
  · exact h.write k w _

theorem sendRequest (h : Steady φ) (method : String) (params : Value) (timeout : Timeout) :
    φ (w.sendRequest k method params timeout).2 = φ w := by
  unfold World.sendRequest
  split
  · rfl
  · exact (h.write k _ _).trans ((h.setConnection k _ _).trans (h.newCell w))

theorem sendAnswer (h : Steady φ) (id : Value) (result : Except Failure Value) :
    φ (w.sendAnswer k id result).2 = φ w := by
  unfold World.sendAnswer
  split
  · rfl
  · exact h.write k w _

theorem closeConnection (h : Steady φ) : φ (w.closeConnection k).2 = φ w := by
  unfold World.closeConnection
  split
  · split
    · rfl
    · exact h.onLoop w _
  · rfl

theorem stopAnswers (h : Steady φ) : φ (w.stopAnswers k).2 = φ w := by
  unfold World.stopAnswers
  dsimp only
  split
  · exact h.cancelAll w _
  · exact (h.gather _ _).trans (h.cancelAll w _)

end Connections

section Sessions

theorem callConnection (p : Connection.Stage) (next : Session.Stage) :
    φ (w.callConnection s p next).2 = φ w := by
  unfold World.callConnection
  split <;> rfl

theorem awaitProcess (h : Steady φ) (timeout : Timeout) (next : Session.Stage) :
    φ (w.awaitProcess s timeout next).2 = φ w := by
  unfold World.awaitProcess
  split
  · split
    · rfl
    · exact h.awaitExit _ w
  · rfl

theorem shutdown (h : Steady φ) (grace : Timeout) : φ (w.shutdown s grace).2 = φ w := by
  unfold World.shutdown
  split
  · split
    · rfl
    · exact h.awaitProcess s w grace _
  · rfl

theorem terminateSession (h : Steady φ) : φ (w.terminateSession s).2 = φ w := by
  unfold World.terminateSession
  split
  · next b _ =>
    have told := h.terminate b w
    split
    · next w' same =>
      rw [same] at told
      exact (h.awaitProcess s w' _ _).trans told
    · next w' same =>
      rw [same] at told
      exact told
  · rfl

end Sessions

section Roster

theorem spawnStops (h : Steady φ) (timeout : Timeout) (sessions : List (String × SessionId)) :
    φ (spawnStops timeout sessions w).2 = φ w := by
  induction sessions generalizing w with
  | nil => rfl
  | cons e rest ih => exact (ih _).trans (h.spawn w _)

theorem killLate (h : Steady φ) (stops : List (TaskId × SessionId)) :
    φ (w.killLate stops).2 = φ w := by
  have killed (late : List (TaskId × SessionId)) :
      φ (late.foldl (fun w stop => (w.killSession stop.2).onLoop (·.cancelTask stop.1)) w) = φ w :=
    foldl_reading (fun w stop => (h.onLoop _ _).trans (h.killSession stop.2 w)) late w
  unfold World.killLate
  dsimp only
  split
  · exact killed _
  · exact (h.gather _ _).trans (killed _)

end Roster

section Jobs

/-- What backends do by themselves. -/
theorem carryOut (h : Steady φ) (d : Backend.Deed) : φ (w.carryOut b d) = φ w := by
  cases d with
  | write bytes => exact h.feed b w bytes
  | exit code endsOutput => exact h.exit b w code endsOutput
  | endOutput => exact h.endOutput b w
  | breakInput => exact h.setBackend b w _
  | stallInput => exact h.setBackend b w _
  | unstallInput => exact h.unstallInput b w

/-- What is carried out while no task runs. -/
theorem runJob (h : Steady φ) (heed : ∀ n w, φ (w.heed n) = φ w) (job : Job Notice) :
    φ (w.runJob job) = φ w := by
  cases job with
  | resume t waited =>
    rw [World.runJob, World.wake]
    split
    · split
      · rfl
      · exact (h.current _ _).trans (h.loop w _)
    · rfl
  | member group => exact h.onLoop w _
  | release c => exact h.release c w
  | call n => exact heed n w
  | fire timer => exact h.onLoop w _

theorem tick (h : Steady φ) : φ w.tick = φ w := by
  unfold World.tick
  split
  · exact h.onLoop w _
  · rfl

end Jobs

end Steady
end LanguageClient.World
