import LanguageClient.Proofs.Relay.Mail

/-!
What becomes of one event that a relay applies: what the shell is called with, and what is left of the
relay's indicator.
-/

namespace LanguageClient

open Schedule

namespace Happening

def isStatus : Happening → Bool
  | .statusShow | .statusHide | .statusReport .. => true
  | _ => false

/-- What is left of an indicator. -/
def mark (i : StatusIndicator) : Happening → StatusIndicator
  | .statusShow => { i with visible := .bool true }
  | .statusHide => { i with visible := .bool false }
  | .statusReport text tooltip => { i with text := text, tooltip := tooltip }
  | _ => i

end Happening

namespace Shell

def Entry.isStatus : Entry → Bool
  | .status _ => true
  | _ => false

def Entry.isError : Entry → Bool
  | .error _ => true
  | _ => false

/-- What a shell shows of a call. One that keeps a record shows the call itself. -/
def Kind.shows : Kind → Entry → List Entry
  | .console, .command name data => match Console.commandLine? name data with
    | some line => [.printed line.printed]
    | none => []
  | .console, .status i => match Console.updateStatus? i with
    | some text => if text.isEmpty then [] else [.printed text]
    | none => []
  | .console, .error message => [.printed (Console.errorLine message).printed]
  | .console, _ => []
  | _, call => [call]

/-- A shell has been called, each time with what is listed. -/
structure Called (calls : List Entry) (s s' : Shell) : Prop where
  log : s'.log = s.log ++ calls.flatMap s.kind.shows
  shows : s'.kind.shows = s.kind.shows

variable {calls more : List Entry} {s s' s'' : Shell}

theorem Called.refl (s : Shell) : Called [] s s where
  log := by simp
  shows := rfl

theorem Called.trans (h : Called calls s s') (h' : Called more s' s'') :
    Called (calls ++ more) s s'' where
  log := by rw [h'.log, h.log, h.shows, List.flatMap_append, List.append_assoc]
  shows := h'.shows.trans h.shows

theorem called_nextOutcome (s : Shell) : Called [] s s.nextOutcome.2 := by
  cases s with
  | mk kind log =>
    cases kind with
    | console => exact .refl _
    | recorder => exact .refl _
    | arbitrary spans failures => cases failures <;> exact ⟨by simp [nextOutcome], rfl⟩

theorem called_nextSpan (s : Shell) : Called [] s s.nextSpan.2 := by
  cases s with
  | mk kind log =>
    cases kind with
    | console => exact .refl _
    | recorder => exact .refl _
    | arbitrary spans failures => cases spans <;> exact ⟨by simp [nextSpan], rfl⟩

theorem called_spanOf (name : Value) (s : Shell) : Called [] s (s.spanOf name).2 := by
  unfold spanOf
  split
  · exact .refl s
  · exact called_nextSpan s

theorem called_note (h : s.kind.shows = fun call => [call]) (call : Entry) :
    Called [call] s (s.note call) := ⟨by simp [note, h], rfl⟩

theorem called_showError (message : String) (s : Shell) :
    Called [.error message] s (s.showError message) := by
  cases s with
  | mk kind log =>
    cases kind with
    | console => exact ⟨by simp [showError, note, Kind.shows], rfl⟩
    | recorder => exact called_note (funext fun _ => rfl) _
    | arbitrary => exact called_note (funext fun _ => rfl) _

theorem called_runCommand (name data : Value) (s : Shell) :
    Called [.command name data] s (s.runCommand name data).2 := by
  cases s with
  | mk kind log =>
    cases kind with
    | console =>
      cases line : Console.commandLine? name data with
      | none => exact ⟨by simp [runCommand, line, Kind.shows], by simp [runCommand, line]⟩
      | some text => exact ⟨by simp [runCommand, line, note, Kind.shows], by simp [runCommand, line, note]⟩
    | recorder => exact called_note (funext fun _ => rfl) _
    | arbitrary => exact (called_note (funext fun _ => rfl) _).trans (called_nextOutcome _)

theorem called_updateStatus (i : StatusIndicator) (s : Shell) :
    Called [.status i] s (s.updateStatus i).2 := by
  cases s with
  | mk kind log =>
    cases kind with
    | console =>
      cases line : Console.updateStatus? i with
      | none => exact ⟨by simp [updateStatus, line, Kind.shows], by simp [updateStatus, line]⟩
      | some text =>
        cases empty : text.isEmpty with
        | true => exact ⟨by simp [updateStatus, line, empty, Kind.shows], by simp [updateStatus, line, empty]⟩
        | false =>
          exact ⟨by simp [updateStatus, line, empty, note, Kind.shows], by simp [updateStatus, line, empty, note]⟩
    | recorder => exact (called_note (funext fun _ => rfl) _).trans (called_nextOutcome _)
    | arbitrary => exact (called_note (funext fun _ => rfl) _).trans (called_nextOutcome _)

theorem called_setDecorations (uri : Value) (kind : String) (items : List Decoration) (s : Shell) :
    Called [.decorations uri kind items] s (s.setDecorations uri kind items).2 := by
  cases s with
  | mk k log =>
    cases k with
    | console => exact ⟨by simp [setDecorations, Kind.shows], rfl⟩
    | recorder => exact (called_note (funext fun _ => rfl) _).trans (called_nextOutcome _)
    | arbitrary => exact (called_note (funext fun _ => rfl) _).trans (called_nextOutcome _)

end Shell

namespace World

variable {w : World} {r : RelayId} {s : SessionId}

theorem called_runLocal (command : Relay.LocalCommand) (data : Value) (w : World) :
    Shell.Called [] w.shell (w.runLocal command data).2.shell := by
  cases command with
  | arbitrary => exact Shell.called_nextOutcome w.shell
  | _ => exact .refl _

theorem called_runCommand (r : RelayId) (name data : Value) (w : World) :
    ∃ calls : List Shell.Entry, Shell.Called calls w.shell (w.runCommand r name data).2.shell ∧
      calls.filter Shell.Entry.isStatus = [] ∧ calls.filter Shell.Entry.isError = [] := by
  unfold runCommand
  split
  · exact ⟨[], .refl _, rfl, rfl⟩
  split
  · exact ⟨[], called_runLocal _ data w, rfl, rfl⟩
  · exact ⟨_, Shell.called_runCommand name data w.shell, rfl, rfl⟩

theorem called_decorate (r : RelayId) (uri items : Value) (kind : String)
    (item : Entries → Except Failure Decoration) (w : World) :
    ∃ calls : List Shell.Entry, Shell.Called calls w.shell (w.decorate r uri items kind item).2.shell ∧
      calls.filter Shell.Entry.isStatus = [] ∧ calls.filter Shell.Entry.isError = [] := by
  unfold decorate
  dsimp only
  split
  · exact ⟨[], .refl _, rfl, rfl⟩
  · exact ⟨[], .refl _, rfl, rfl⟩
  · next ds _ => exact ⟨_, Shell.called_setDecorations uri kind ds w.shell, rfl, rfl⟩

theorem relay_setRelay_self (h : r < w.relays.length) (f : Relay → Relay) :
    (w.setRelay r f).relay r = f (w.relay r) := by
  simp [setRelay, relay, List.getD_eq_getElem?_getD, h]

/-- A relay shows its indicator as an event leaves it. -/
theorem called_showStatus (known : r < w.relays.length) (f : StatusIndicator → StatusIndicator) :
    Shell.Called [.status (f (w.relay r).indicator)] w.shell
      ((w.setIndicator r f).showStatus r).2.shell := by
  have indicator : ((w.setIndicator r f).relay r).indicator = f (w.relay r).indicator :=
    congrArg Relay.indicator (relay_setRelay_self known _)
  exact indicator ▸ Shell.called_updateStatus _ w.shell

/-- The shell is called with the indicator once for a status, and never else. -/
theorem called_applyEvent (known : r < w.relays.length) (what : Happening) :
    ∃ calls : List Shell.Entry, Shell.Called calls w.shell (w.applyEvent r what).2.shell ∧
      calls.filter Shell.Entry.isStatus =
        (if what.isStatus then [.status (what.mark (w.relay r).indicator)] else []) ∧
      calls.filter Shell.Entry.isError = [] := by
  cases what with
  | command name data => exact called_runCommand r name data w
  | statusShow => exact ⟨_, called_showStatus known _, rfl, rfl⟩
  | statusHide => exact ⟨_, called_showStatus known _, rfl, rfl⟩
  | statusReport text tooltip => exact ⟨_, called_showStatus known _, rfl, rfl⟩
  | hint uri edits => exact called_decorate r uri edits "hint" Relay.hint w
  | comment uri ranges => exact called_decorate r uri ranges "comment" Relay.comment w
  | other name => exact ⟨[], .refl _, rfl, rfl⟩

/-- The error that the shell is told of when an event cannot be applied. -/
def complaint (e : Event) : Except Failure Unit → List Shell.Entry
  | .ok () => []
  | .error f => [.error ("Roblox LSP: " ++ (e.what.typeName ++ " failed: " ++ f.message))]

theorem called_dispatchEvent (known : r < w.relays.length) (e : Event) :
    ∃ calls : List Shell.Entry, Shell.Called calls w.shell (w.dispatchEvent r e).shell ∧
      calls.filter Shell.Entry.isStatus =
        (if e.what.isStatus then [.status (e.what.mark (w.relay r).indicator)] else []) ∧
      calls.filter Shell.Entry.isError = complaint e (w.applyEvent r e.what).1 := by
  obtain ⟨calls, called, statuses, errors⟩ := called_applyEvent known e.what
  unfold dispatchEvent
  split
  · next w' applied =>
    rw [applied] at called
    exact ⟨calls, called, statuses, by rw [errors, applied]; rfl⟩
  · next f w' applied =>
    rw [applied] at called
    refine ⟨calls ++ [_], called.trans (Shell.called_showError _ _), ?_, ?_⟩
    · rw [List.filter_append, statuses]
      simp [Shell.Entry.isStatus]
    · rw [List.filter_append, errors, applied]
      simp [Shell.Entry.isError, complaint]

theorem box_showStatus (known : r < w.relays.length) (f : StatusIndicator → StatusIndicator)
    (s : SessionId) :
    ((w.setIndicator r f).showStatus r).2.box s r = { w.box s r with mark := f (w.box s r).mark } := by
  have indicator : ((w.setIndicator r f).relay r).indicator = f (w.relay r).indicator :=
    congrArg Relay.indicator (relay_setRelay_self known _)
  show (w.setIndicator r f).box s r = _
  rw [box, indicator]
  rfl

/-- Of what events pass through an event leaves its mark on the indicator alone. -/
theorem box_dispatchEvent (known : r < w.relays.length) (s : SessionId) (e : Event) :
    (w.dispatchEvent r e).box s r = { w.box s r with mark := e.what.mark (w.box s r).mark } := by
  have applied : (w.applyEvent r e.what).2.box s r =
      { w.box s r with mark := e.what.mark (w.box s r).mark } := by
    cases e.what with
    | command name data => exact box_of_post (post_runCommand r name data w) s r
    | statusShow => exact box_showStatus known _ s
    | statusHide => exact box_showStatus known _ s
    | statusReport text tooltip => exact box_showStatus known _ s
    | hint uri edits => exact box_of_post (post_decorate r uri edits "hint" Relay.hint w) s r
    | comment uri ranges => exact box_of_post (post_decorate r uri ranges "comment" Relay.comment w) s r
    | other name => rfl
  unfold dispatchEvent
  split
  · next same => rwa [same] at applied
  · next same =>
    rw [same] at applied
    exact applied

theorem called_worldSpan (r : RelayId) (what : Happening) (w : World) :
    Shell.Called [] w.shell (w.spanOf r what).2.shell := by
  unfold spanOf
  dsimp only
  split
  · split
    · exact .refl _
    split
    · exact .refl _
    · exact Shell.called_nextSpan w.shell
    · exact .refl _
    · exact Shell.called_spanOf _ w.shell
  · exact .refl _

end World
end LanguageClient
