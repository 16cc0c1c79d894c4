import LanguageClient.Roster.Run

/-!
How the calls of the editor go on: documents are opened, folders change, views change, and snapshots
arrive at the bridge.
-/

namespace LanguageClient.World

open Schedule

/-- Turns the bridge on, unless it is off by its settings or on already. -/
def activate (documents : List Document) (bindError : Option String) (w : World) : Step :=
  let bridge := w.workspace.bridge
  if bridge.port ≤ 0 || bridge.running then w.continueAt (.workspace (.openEach documents))
  else match bindError with
    | some text => (.pause (.workspace (.bindFailed documents text)), w)
    | none =>
      (w.setBridge fun b => { b with running := true }).continueAt
        (.workspace (.openEach documents))

def openEach (documents : List Document) (w : World) : Step :=
  match documents with
  | [] => w.finish
  | d :: rest => (.call (.workspace (.open d)) (.workspace (.openEach rest)), w)

/-- A document needs the session of the root that owns it. -/
def openDocument (d : Document) (w : World) : Step :=
  if !w.workspace.accepts d.language d.uri then w.noSession
  else match w.workspace.owner? d.uri with
    | .error e => w.fail e
    | .ok owner => w.continueAt (.roster (.ensure owner))

/-- Remembers the order of the roots for the next question. -/
def sortRoots (w : World) : World :=
  w.setWorkspace fun ws => { ws with resolver := ws.resolver.remember }

/-- One session for each outermost root, one after the other. -/
def startEach (roots : List Root) (seen : List String) (started : List SessionId) (w : World) :
    Step :=
  match roots with
  | [] => (.done (.ok (.sessions started)), w)
  | root :: rest =>
    let owner := w.workspace.resolver.outermost root
    if seen.contains owner.key then w.continueAt (.workspace (.startEach rest seen started))
    else (.call (.roster (.ensure (some owner)))
      (.workspace (.startedOne rest (seen ++ [owner.key]) started)), w)

def deactivate (w : World) : Step :=
  if w.workspace.bridge.running then
    (.pause (.workspace .bridgeStopped), w.setBridge fun b => { b with running := false })
  else w.continueAt (.workspace .bridgeStopped)

def bridgeStopped (w : World) : Step :=
  let relays := w.workspace.relays.map (·.2)
  (w.setWorkspace fun ws => { ws with relays := [] }).continueAt (.workspace (.closeEach relays))

/-- Closes relays, then gives up what is still being told. -/
def closeEach (relays : List RelayId) (w : World) : Step :=
  match relays with
  | r :: rest => (.call (.relay r .close) (.workspace (.closeEach rest)), w)
  | [] =>
    let reports := w.workspace.reports
    let w := reports.foldl (fun w t => w.onLoop (·.cancelTask t)) w
    if reports.isEmpty then w.continueAt (.workspace .reportsStopped)
    else
      let (cell, w) := w.gather reports
      (.await cell (.workspace .reportsStopped), w)

/-- Folders that are gone take their relays and their sessions along. -/
def changeFolders (added removed : List Root) (w : World) : Step :=
  match removed with
  | root :: rest =>
    let w := w.setWorkspace fun ws => { ws with resolver := ws.resolver.remove root }
    match w.workspace.relay? root.key with
    | some r =>
      (.call (.relay r .close) (.workspace (.folderClosed root added rest)),
        w.setWorkspace (·.removeRelay root.key))
    | none => w.continueAt (.workspace (.folderClosed root added rest))
  | [] =>
    (w.setWorkspace fun ws => { ws with
      resolver := added.foldl (fun res root => res.add root) ws.resolver }).finish

/-- The relay that a document's views are told to, if its session runs. -/
def relayFor (uri : String) (w : World) : Except Failure (Option RelayId) :=
  (w.workspace.owner? uri).map fun owner =>
    match w.workspace.relay? (Session.keyOf owner) with
    | some r => if w.isRunning (w.relay r).session then some r else none
    | none => none

def noRanges (w : World) : Step := (.done (.ok (.ranges none)), w)

def showView (v : View) (w : World) : Step :=
  if !w.workspace.accepts v.language v.uri then w.noRanges
  else
    let w := w.setWorkspace fun ws => { ws with views := Views.put v ws.views }
    match w.relayFor v.uri with
    | .error e => w.fail e
    | .ok none => w.noRanges
    | .ok (some r) => w.continueAt (.relay r (.report v))

/-- Forgets a document's view, and has every registered relay forget it. -/
def forgetView (uri : String) (w : World) : World :=
  let w := w.setWorkspace fun ws => { ws with views := Views.forget uri ws.views }
  w.workspace.relays.foldl
    (fun w e => w.setRelay e.2 fun x => { x with views := Views.forget uri x.views }) w

/-- The views that the editor shows now; the others are forgotten. -/
def showViews (views : List View) (w : World) : Step :=
  let visible := views.filter fun v => w.workspace.accepts v.language v.uri
  let gone := (w.workspace.views.map (·.1)).filter fun uri => !visible.any fun v => v.uri = uri
  (gone.foldl (fun w uri => w.forgetView uri) w).continueAt (.workspace (.showEach visible))

/-- Clicks the status of a document's session, or of the active one. -/
def clickStatus (uri : Option String) (w : World) : Step :=
  let relay : Except Failure (Option RelayId) := match uri with
    | some uri => w.relayFor uri
    | none => .ok (w.active?.bind fun s => w.workspace.relay? (w.session s).key)
  match relay with
  | .error e => w.fail e
  | .ok none => w.finish
  | .ok (some r) => w.continueAt (.relay r .click)

/-- Tells a relay of the views whose documents are its own. -/
def reportEach (r : RelayId) (views : List View) (w : World) : Step :=
  match views with
  | [] => w.finish
  | v :: rest => match w.relayFor v.uri with
    | .error e => w.fail e
    | .ok found =>
      if found = some r then
        (.call (.relay r (.report v)) (.workspace (.reportEach r rest)), w)
      else w.continueAt (.workspace (.reportEach r rest))

/-- Goes on to deactivate, whatever has happened. -/
def leave (o : Except Failure Unit) (w : World) : Step :=
  (.call (.workspace .deactivate) (.workspace (.left o)), w)

/-- Waits for nothing, until it is cancelled. -/
def serveOn (w : World) : Step :=
  let (cell, w) := w.newCell
  (.await cell (.workspace .defaultStarted), w)

def answered (r : Bridge.Response) (w : World) : Step := (.done (.ok (.response r)), w)

/-- A snapshot goes to the active session; without one that is shown. -/
def forward (p : Bridge.Payload) (w : World) : Step :=
  match w.active? with
  | none =>
    (w.showError (Failure.forwarding updateDataModel "no running session").message).answered
      .accepted
  | some s =>
    (.call (.session s (.notify updateDataModel p.params)) (.workspace (.forwarded p)), w)

/-- A request to the bridge. -/
def receive (request : Bridge.Request) (w : World) : Step :=
  match request.route with
  | .error status => w.answered (.bare status)
  | .ok .last => w.answered (Bridge.lastText w.workspace.bridge.last)
  | .ok .update =>
    if Bridge.tooLarge w.workspace.bridge.bodyLimit request.body then w.answered (.bare 413)
    else match Bridge.read request with
      | .error e => w.fail e
      | .ok (.rejected reason) => w.answered (.rejected reason)
      | .ok (.payload p) => w.forward p

def forwarded (p : Bridge.Payload) (o : Outcome Result) (w : World) : Step :=
  match o with
  | .ok _ => (w.setBridge fun b => { b with last := some p }).answered .accepted
  | .error e =>
    if e.isOwn then (w.showError e.message).answered .accepted else w.fail e

def resumeWorkspace (p : Workspace.Stage) (o : Outcome Result) (w : World) : Step :=
  match p, o with
  | .activate documents bindError, .ok _ => w.activate documents bindError
  | .bindFailed documents text, .ok _ =>
    (w.showError ("bridge failed to start: " ++ text)).continueAt (.workspace (.openEach documents))
  | .openEach documents, .ok _ => w.openEach documents
  | .open d, .ok _ => w.openDocument d
  | .startAll, .ok _ =>
    w.sortRoots.continueAt (.workspace (.startEach w.workspace.resolver.sorted [] []))
  | .startEach roots seen started, .ok _ => w.startEach roots seen started
  | .startedOne roots seen started, .ok (.session (some s)) =>
    w.startEach roots seen (started ++ [s])
  | .startedOne roots seen started, .ok _ => w.startEach roots seen started
  | .deactivate, .ok _ => w.deactivate
  | .bridgeStopped, .ok _ => w.bridgeStopped
  | .closeEach relays, .ok _ => w.closeEach relays
  | .reportsStopped, .ok _ => w.continueAt (.roster (.stopAll w.configuredStop))
  | .changeFolders added removed, .ok _ => w.changeFolders added removed
  | .folderClosed root added removed, .ok _ =>
    (.call (.roster (.stop (some root))) (.workspace (.changeFolders added removed)), w)
  | .show v, .ok _ => w.showView v
  | .showAll views, .ok _ => w.showViews views
  | .showEach (v :: rest), .ok _ => (.call (.workspace (.show v)) (.workspace (.showEach rest)), w)
  | .showEach [], .ok _ => w.finish
  | .click uri, .ok _ => w.clickStatus uri
  | .reportAll r, .ok _ =>
    w.continueAt (.workspace (.reportEach r (w.workspace.views.map (·.2))))
  | .reportEach r views, .ok _ => w.reportEach r views
  | .serve, .ok _ => (.call (.workspace (.activate [] none)) (.workspace .serving), w)
  | .serving, .ok _ => (.call (.workspace .startAll) (.workspace .allStarted), w)
  | .allStarted, .ok (.sessions []) =>
    if w.workspace.resolver.roots.isEmpty then
      (.call (.roster (.ensure none)) (.workspace .defaultStarted), w)
    else w.serveOn
  | .allStarted, .ok _ | .defaultStarted, .ok _ => w.serveOn
  | .allStarted, .error e | .defaultStarted, .error e => w.leave (.error e)
  | .leave o, .ok _ => w.leave o
  | .left (.ok ()), .ok _ => w.finish
  | .left (.error e), .ok _ => w.fail e
  | .receive request, .ok _ => w.receive request
  | .forwarded p, o => w.forwarded p o
  | _, .error e => w.fail e

end LanguageClient.World
