import LanguageClient.Proofs.Relay.Applying
import LanguageClient.Proofs.Workspace.Views

/-!
The status of a relay on a console. An event leaves its mark on the indicator whether or not the console
can show the outcome, so that a report which cannot be shown stays until the next report: until then
every event that brings the status into sight fails.
-/

namespace LanguageClient

namespace Console

/-- What a console can show as a status: a text, with a tooltip that is a text or empty. -/
structure Shows (text tooltip : Value) : Prop where
  text : ∃ t, text = .text t
  tooltip : tooltip.truthy = true → ∃ t, tooltip = .text t

theorem appendValue?_eq_none {s : Styled} {v : Value} {style : String} :
    s.appendValue? v style = none ↔ ¬ ∃ t, v = .text t := by
  cases v <;> simp [Styled.appendValue?]

theorem status?_eq_none {i : StatusIndicator} : status? i = none ↔ ¬ Shows i.text i.tooltip := by
  unfold status?
  dsimp only
  generalize Styled.empty.append " ● " _ = bar
  by_cases text : ∃ t, i.text = .text t
  · have shows : Shows i.text i.tooltip ↔ (i.tooltip.truthy = true → ∃ t, i.tooltip = .text t) :=
      ⟨Shows.tooltip, fun tooltip => ⟨text, tooltip⟩⟩
    obtain ⟨t, same⟩ := text
    have bold : bar.appendValue? (.text t) "bold" = some (bar.append t "bold") := rfl
    rw [shows, same, bold, Option.bind_eq_bind, Option.bind_some]
    split
    · next truthy => rw [appendValue?_eq_none, forall_prop_of_true truthy]
    · next falsy => exact iff_of_false (fun same => nomatch same) (not_not.2 fun truthy => absurd truthy falsy)
  · rw [appendValue?_eq_none.2 text]
    exact iff_of_true rfl fun shows => text shows.text

/-- A hidden status is not even looked at. -/
theorem updateStatus?_eq_none {i : StatusIndicator} :
    updateStatus? i = none ↔ i.visible.truthy = true ∧ ¬ Shows i.text i.tooltip := by
  unfold updateStatus?
  split
  · next visible => rw [Option.map_eq_none_iff, status?_eq_none, and_iff_right visible]
  · next hidden => simp [hidden]

end Console

namespace Shell

theorem updateStatus_console {s : Shell} (console : s.kind = .console) (i : StatusIndicator) :
    (∃ f, (s.updateStatus i).1 = .error f) ↔
      i.visible.truthy = true ∧ ¬ Console.Shows i.text i.tooltip := by
  rw [← Console.updateStatus?_eq_none, updateStatus, console]
  cases Console.updateStatus? i <;> simp

/-- Only a console shows nothing of decorations. -/
theorem Kind.console_of_shows {kind : Kind} (h : kind.shows = Kind.console.shows) : kind = .console := by
  have nothing := congrFun h (.decorations .null "" [])
  cases kind with
  | console => rfl
  | _ => cases nothing

end Shell

namespace Happening

def isReport : Happening → Bool
  | .statusReport .. => true
  | _ => false

/-- Only a report changes what is to be shown. -/
theorem mark_texts {what : Happening} (other : what.isReport = false) (i : StatusIndicator) :
    (what.mark i).text = i.text ∧ (what.mark i).tooltip = i.tooltip := by
  cases what with
  | statusReport => cases other
  | _ => exact ⟨rfl, rfl⟩

theorem foldl_mark_texts {events : List Event} (other : ∀ e ∈ events, e.what.isReport = false)
    (i : StatusIndicator) :
    (events.foldl (fun i e => e.what.mark i) i).text = i.text ∧
      (events.foldl (fun i e => e.what.mark i) i).tooltip = i.tooltip := by
  induction events generalizing i with
  | nil => exact ⟨rfl, rfl⟩
  | cons e events ih =>
    obtain ⟨here, later⟩ := List.forall_mem_cons.1 other
    have same := mark_texts here i
    have rest := ih later (e.what.mark i)
    exact ⟨rest.1.trans same.1, rest.2.trans same.2⟩

end Happening

namespace World

variable {w : World} {r : RelayId} {e : Event}

/-- An event cannot be applied, and the shell is told so. -/
def Fails (r : RelayId) (e : Event) (w : World) : Prop :=
  ∃ f, (w.applyEvent r e.what).1 = .error f

theorem indicator_dispatchEvent (known : r < w.relays.length) (e : Event) :
    ((w.dispatchEvent r e).relay r).indicator = e.what.mark (w.relay r).indicator :=
  congrArg Box.mark (box_dispatchEvent known 0 e)

/-- A relay on a console. -/
structure OnConsole (r : RelayId) (w : World) : Prop where
  known : r < w.relays.length
  console : w.shell.kind = .console

namespace OnConsole

theorem dispatchEvent (h : w.OnConsole r) (e : Event) : (w.dispatchEvent r e).OnConsole r where
  known := by
    have count (w : World) : w.desk.served.length = w.relays.length := List.length_map _
    rw [← count, offstage_desk.dispatchEvent, count]
    exact h.known
  console := by
    obtain ⟨calls, called, -⟩ := called_dispatchEvent h.known e
    exact Shell.Kind.console_of_shows (h.console ▸ called.shows)

/-- A status event fails if it leaves in sight what the console cannot show. -/
theorem fails_iff (h : w.OnConsole r) (status : e.what.isStatus = true) :
    w.Fails r e ↔ (e.what.mark (w.relay r).indicator).visible.truthy = true ∧
      ¬ Console.Shows (e.what.mark (w.relay r).indicator).text
        (e.what.mark (w.relay r).indicator).tooltip := by
  have shown (f : StatusIndicator → StatusIndicator) :
      (∃ x, ((w.setIndicator r f).showStatus r).1 = .error x) ↔
        (f (w.relay r).indicator).visible.truthy = true ∧
          ¬ Console.Shows (f (w.relay r).indicator).text (f (w.relay r).indicator).tooltip := by
    have indicator : ((w.setIndicator r f).relay r).indicator = f (w.relay r).indicator :=
      congrArg Relay.indicator (relay_setRelay_self h.known _)
    rw [← indicator]
    exact Shell.updateStatus_console h.console _
  unfold Fails
  cases what : e.what with
  | statusShow => exact shown _
  | statusHide => exact shown _
  | statusReport text tooltip => exact shown _
  | _ =>
    rw [what] at status
    cases status

end OnConsole

/-- A relay applies some events, one after another. -/
def dispatchAll (r : RelayId) (events : List Event) (w : World) : World :=
  events.foldl (fun w e => w.dispatchEvent r e) w

namespace OnConsole

/-- What the events make of the indicator does not depend on which of them failed. -/
theorem dispatchAll (h : w.OnConsole r) (events : List Event) :
    (w.dispatchAll r events).OnConsole r ∧ ((w.dispatchAll r events).relay r).indicator =
      events.foldl (fun i e => e.what.mark i) (w.relay r).indicator := by
  induction events generalizing w with
  | nil => exact ⟨h, rfl⟩
  | cons e events ih =>
    rw [World.dispatchAll, List.foldl_cons, List.foldl_cons, ← indicator_dispatchEvent h.known e]
    exact ih (h.dispatchEvent e)

variable {before since : List Event} {text tooltip : Value} {again : Event}

/-- A report decides about what follows up to the next one: if it cannot be shown, whatever brings the
status into sight fails, once and again, and if it can, nothing does. -/
theorem fails_after_report (h : w.OnConsole r) (report : e.what = .statusReport text tooltip)
    (others : ∀ e ∈ since, e.what.isReport = false) (shows : again.what = .statusShow) :
    (w.dispatchAll r (before ++ e :: since)).Fails r again ↔ ¬ Console.Shows text tooltip := by
  obtain ⟨console, indicator⟩ := h.dispatchAll (before ++ e :: since)
  have status : again.what.isStatus = true := by rw [shows]; rfl
  have texts := Happening.foldl_mark_texts others
    (e.what.mark (before.foldl (fun i e => e.what.mark i) (w.relay r).indicator))
  rw [console.fails_iff status, shows, indicator, List.foldl_append, List.foldl_cons]
  rw [report] at texts ⊢
  rw [Happening.mark, texts.1, texts.2]
  exact and_iff_right rfl

/-- Hiding the status never fails, and neither does a report of texts, whatever came before. -/
theorem not_fails (h : w.OnConsole r) (events : List Event)
    (mends : e.what = .statusHide ∨ ∃ text tooltip, e.what = .statusReport text tooltip ∧
      Console.Shows text tooltip) : ¬ (w.dispatchAll r events).Fails r e := by
  have console := (h.dispatchAll events).1
  rcases mends with hide | ⟨text, tooltip, report, shows⟩
  · rw [console.fails_iff (by rw [hide]; rfl), hide]
    rintro ⟨visible, -⟩
    cases visible
  · rw [console.fails_iff (by rw [report]; rfl), report]
    exact fun fails => fails.2 shows

end OnConsole

/-- A status that is reported with a list for its text, and then shown: it is not shown, nor is what was
shown before. -/
theorem reported_list_stays :
    (dispatchAll 0 [⟨none, .statusShow⟩, ⟨none, .statusReport (.list [.text "x"]) (.text "")⟩,
      ⟨none, .statusShow⟩] (ofRelay (Relay.make 0 [] "") default ⟨.console, []⟩)).shell.log =
        [.printed " ● Roblox LSP\n",
          .printed "Roblox LSP: status_report failed: Only str or Text can be appended to Text\n",
          .printed "Roblox LSP: status_show failed: Only str or Text can be appended to Text\n"] := by
  decide +kernel

end World
end LanguageClient
