import LanguageClient.Connection.Run

/-!
What a relay does with events, and how it tells a backend what is visible.
-/

namespace LanguageClient.World

open Schedule

def setIndicator (r : RelayId) (f : StatusIndicator → StatusIndicator) (w : World) : World :=
  w.setRelay r fun x => { x with indicator := f x.indicator }

/-- Shows the indicator of a relay as it is now. -/
def showStatus (r : RelayId) (w : World) : Except Failure Unit × World :=
  let (o, shell) := w.shell.updateStatus (w.relay r).indicator
  (o, { w with shell := shell })

def runLocal (command : Relay.LocalCommand) (data : Value) (w : World) :
    Except Failure Unit × World :=
  match command with
  | .configure =>
    let (settings, o) := w.workspace.settings.applyCommand data
    (o, w.setWorkspace fun ws => { ws with settings := settings })
  | .fail => (.error (.refused "command failed"), w)
  | .record name | .recordLater name => (.ok (), w.see (.localCommand name data))
  | .arbitrary name =>
    let (o, shell) := w.shell.nextOutcome
    (o, { w with shell := shell }.see (.localCommand name data))

/-- The relay's own command of a name. -/
def localCommand? (r : RelayId) (k : Key) (w : World) : Option Relay.LocalCommand :=
  ((w.relay r).commands.find? fun c => (Key.text c.1).same k).map (·.2)

/-- A command of the relay's own, or one of the shell's. -/
def runCommand (r : RelayId) (name data : Value) (w : World) : Except Failure Unit × World :=
  match name.key? with
  | none => (.error (.unhashable name.kind), w)
  | some k => match w.localCommand? r k with
    | some command => w.runLocal command data
    | none =>
      let (o, shell) := w.shell.runCommand name data
      (o, { w with shell := shell })

/-- Decorations for a document that is shown; others are not even looked at. -/
def decorate (r : RelayId) (uri items : Value) (kind : String)
    (item : Entries → Except Failure Decoration) (w : World) : Except Failure Unit × World :=
  let decorations : Except Failure (Option (List Decoration)) := do
    if ← Relay.isShown uri (w.relay r).views then
      let entries ← Relay.mappings items
      return some (← entries.mapM item)
    else return none
  match decorations with
  | .error e => (.error e, w)
  | .ok none => (.ok (), w)
  | .ok (some ds) =>
    let (o, shell) := w.shell.setDecorations uri kind ds
    (o, { w with shell := shell })

def applyEvent (r : RelayId) (what : Happening) (w : World) : Except Failure Unit × World :=
  match what with
  | .command name data => w.runCommand r name data
  | .statusShow => (w.setIndicator r fun i => { i with visible := .bool true }).showStatus r
  | .statusHide => (w.setIndicator r fun i => { i with visible := .bool false }).showStatus r
  | .statusReport text tooltip =>
    (w.setIndicator r fun i => { i with text := text, tooltip := tooltip }).showStatus r
  | .hint uri edits => w.decorate r uri edits "hint" Relay.hint
  | .comment uri ranges => w.decorate r uri ranges "comment" Relay.comment
  | .other _ => (.ok (), w)

/-- Applies an event. One that fails is shown as an error, and those after it are applied all the same. -/
def dispatchEvent (r : RelayId) (e : Event) (w : World) : World :=
  match w.applyEvent r e.what with
  | (.ok (), w) => w
  | (.error f, w) => w.showError (e.what.typeName ++ " failed: " ++ f.message)

/-- How often an event lets the other tasks go on before it is applied. -/
def spanOf (r : RelayId) (what : Happening) (w : World) : Nat × World :=
  let ofShell (next : Nat × Shell) : Nat × World := (next.1, { w with shell := next.2 })
  match what with
  | .command name _ => match name.key? with
    | none => (0, w)
    | some k => match w.localCommand? r k with
      | some (.recordLater _) => (1, w)
      | some (.arbitrary _) => ofShell w.shell.nextSpan
      | some _ => (0, w)
      | none => ofShell (w.shell.spanOf name)
  | _ => (0, w)

/-- Applies an event once the other tasks have gone on so many times. -/
def dispatchAfter (r : RelayId) (e : Event) (span : Nat) (w : World) : Step :=
  match span with
  | 0 => (w.dispatchEvent r e).finish
  | span + 1 => (.pause (.relay r (.dispatchLater e span)), w)

def relayEvent (r : RelayId) (e : Event) (w : World) : Step :=
  let (span, w) := w.spanOf r e.what
  w.dispatchAfter r e span

/-- What a backend is told of a view. -/
def rangesParams (v : View) (ranges : List Range) : Value :=
  .record [("uri", .text v.uri), ("ranges", .list (ranges.map Range.toValue))]

def reportView (r : RelayId) (v : View) (w : World) : Step :=
  let w := w.setRelay r fun x => { x with views := Views.put v x.views }
  let ranges := Range.coalesce v.ranges v.lineCount Range.margin
  (.call (.session (w.relay r).session (.notify didChangeVisibleRanges (rangesParams v ranges)))
    (.relay r (.reported ranges)), w)

/-- Failures of the client itself are shown; the call goes on. -/
def shown (o : Outcome Result) (w : World) : Except Failure World :=
  match o with
  | .ok _ => .ok w
  | .error e => if e.isOwn then .ok (w.showError e.message) else .error e

def closeRelay (r : RelayId) (w : World) : Step :=
  match (w.relay r).task with
  | none => w.finish
  | some t =>
    if w.loop.taskDone t then w.finish
    else (.await (w.loop.taskCell t) (.relay r .closed), w.onLoop (·.cancelTask t))

/-- Whether a relay still takes events. -/
def relayRuns (r : RelayId) (w : World) : Bool :=
  match (w.relay r).task with
  | none => false
  | some t => !w.loop.taskDone t

/-- Has a relay take the events of its session. -/
def startRelay (r : RelayId) (w : World) : World :=
  let (t, w) := w.spawn (.session (w.relay r).session (.consume (.relay r)))
  w.setRelay r fun x => { x with task := some t }

def resumeRelay (r : RelayId) (p : Relay.Stage) (o : Outcome Result) (w : World) : Step :=
  match p, o with
  | .dispatch e, .ok _ => w.relayEvent r e
  | .dispatchLater e span, .ok _ => w.dispatchAfter r e span
  | .close, .ok _ => w.closeRelay r
  | .closed, .ok _ | .closed, .error .cancelled => w.finish
  | .report v, .ok _ => w.reportView r v
  | .reported ranges, o => match w.shown o with
    | .ok w => (.done (.ok (.ranges (some ranges))), w)
    | .error e => w.fail e
  | .click, .ok _ =>
    (.call (.session (w.relay r).session (.notify statusClick (.map []))) (.relay r .clicked), w)
  | .clicked, o => match w.shown o with
    | .ok w => w.finish
    | .error e => w.fail e
  | _, .error e => w.fail e

end LanguageClient.World
