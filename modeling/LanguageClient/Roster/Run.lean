import LanguageClient.Relay.Run
import LanguageClient.Session.Run

/-!
How sessions get onto the roster and off it.
-/

namespace LanguageClient.World

open Schedule

def roster (w : World) : Roster := w.workspace.roster

def registered? (key : String) (w : World) : Option SessionId := w.roster.find? key

/-- A new session for a root, which is not registered yet. -/
def createSession (root : Option Root) (w : World) : Except Failure SessionId × World :=
  match w.workspace.settings.forRoot root with
  | .error e => (.error e, w)
  | .ok settings =>
    let (launcher, command) := w.roster.launcher.command settings
    let w := w.setRoster fun r => { r with launcher := launcher }
    match command with
    | .error e => (.error e, w)
    | .ok command =>
      let config := w.workspace.config
      let (s, w) := w.addSession
        (.make root command (.ofSeconds config.requestTimeout) config.eventQueueSize)
      (.ok s, w.setSession s fun x => { x with watchers := [.manager] })

def noSession (w : World) : Step := (.done (.ok (.session none)), w)

/-- A launch that fails is shown, and the call comes to no session. -/
def reportLaunch (e : Failure) (w : World) : Step :=
  match e with
  | .launch .. => (w.showError e.message).noSession
  | e => w.fail e

/-- The running session for a root, or a new one. -/
def ensure (root : Option Root) (w : World) : Step :=
  let key := Session.keyOf root
  let start (w : World) : Step :=
    match w.createSession root with
    | (.error e, w) => w.reportLaunch e
    | (.ok s, w) =>
      (.call (.session s .start) (.roster (.sessionStarted key s)), w.setRoster (·.insert key s))
  match w.registered? key with
  | some s =>
    if w.isRunning s then (.done (.ok (.session (some s))), w)
    else start (w.setRoster (·.remove key))
  | none => start w

/-- A new relay for a session that has become ready. -/
def addSessionRelay (s : SessionId) (w : World) : World :=
  let key := (w.session s).key
  let (r, w) := w.addRelay
    (.make s [(Workspace.configCommand, .configure)] Workspace.statusClickCommand)
  let w := w.setWorkspace fun ws => { ws with relays := Workspace.putRelay key r ws.relays }
  let w := w.startRelay r
  let (t, w) := w.spawn (.workspace (.reportAll r))
  let w := w.setWorkspace fun ws => { ws with reports := ws.reports ++ [t] }
  w.onLoop fun l => l.watch (l.taskCell t) (.call (.reportDone t))

def runHook (s : SessionId) (w : World) : World :=
  match w.roster.hook with
  | .none | .fail => w
  | .relay => w.addSessionRelay s

def sessionStarted (key : String) (s : SessionId) (o : Outcome Result) (w : World) : Step :=
  match o with
  | .ok _ =>
    if (w.session s).state ≠ .ready then w.noSession
    else
      let w := w.setRoster fun r => { r with lastStarted := some key }
      (.done (.ok (.session (some s))), w.runHook s)
  | .error (.launch root reason) =>
    let w := if w.registered? key = some s then w.setRoster (·.remove key) else w
    w.reportLaunch (.launch root reason)
  | .error e => w.fail e

/-- Sessions on the roster that run. -/
def running (w : World) : List (String × SessionId) :=
  w.roster.sessions.filter fun e => w.isRunning e.2

/-- Where messages without a document go: to the only session that runs, to the one started last,
or to the default one. -/
def active? (w : World) : Option SessionId :=
  let find (key : String) : Option SessionId := (w.running.find? fun e => e.1 = key).map (·.2)
  match w.running with
  | [e] => some e.2
  | _ => match w.roster.lastStarted.bind find with
    | some s => some s
    | none => find Session.defaultKey

def configuredStop (w : World) : Timeout := .ofSeconds w.workspace.config.stopTimeout

def stopRoot (root : Option Root) (w : World) : Step :=
  let key := Session.keyOf root
  match w.registered? key with
  | none => w.finish
  | some s =>
    (w.setRoster fun r => (r.remove key).forgetLast key).continueAt
      (.session s (.stop w.configuredStop))

/-- Starts a task for each session that stops it. -/
def spawnStops (timeout : Timeout) : List (String × SessionId) → World →
    List (TaskId × SessionId) × World
  | [], w => ([], w)
  | e :: rest, w =>
    let (t, w) := w.spawn (.session e.2 (.stop timeout))
    let (stops, w) := spawnStops timeout rest w
    ((t, e.2) :: stops, w)

/-- Stops every session, all at once, and waits no longer than the limit. -/
def stopAll (timeout : Timeout) (w : World) : Step :=
  let sessions := w.roster.sessions
  let w := w.setRoster fun r => { r with sessions := [], lastStarted := none }
  if sessions.isEmpty then w.finish
  else
    let (stops, w) := spawnStops timeout sessions w
    let (cell, l) := w.loop.countdown (stops.map fun stop => w.loop.taskCell stop.1)
    let (timer, l) := match timeout with
      | .never => (none, l)
      | .after span =>
        let (timer, l) := l.setTimer span (.release cell)
        (some timer, l)
    (.await cell (.roster (.stopsOver stops timer)), { w with loop := l })

/-- Sessions that have not stopped in time are killed, and their stops given up. -/
def killLate (stops : List (TaskId × SessionId)) (w : World) : Step :=
  let late := stops.filter fun stop => !w.loop.taskDone stop.1
  let w := late.foldl (fun w stop => (w.killSession stop.2).onLoop (·.cancelTask stop.1)) w
  if late.isEmpty then w.finish
  else
    let (cell, w) := w.gather (late.map (·.1))
    (.await cell .pass, w)

def resumeRoster (p : Roster.Stage) (o : Outcome Result) (w : World) : Step :=
  match p, o with
  | .ensure root, .ok _ => w.ensure root
  | .sessionStarted key s, o => w.sessionStarted key s o
  | .stop root, .ok _ => w.stopRoot root
  | .stopAll timeout, .ok _ => w.stopAll timeout
  | .stopsOver stops timer, o =>
    let w := match timer with
      | some id => w.onLoop (·.stopTimer id)
      | none => w
    match o with
    | .ok _ => w.killLate stops
    | .error e => w.fail e
  | .notify root method params, .ok _ => match w.registered? (Session.keyOf root) with
    | some s => w.continueAt (.session s (.notify method params))
    | none => (.done (.ok (.value (.text "no session"))), w)
  | _, .error e => w.fail e

end LanguageClient.World
