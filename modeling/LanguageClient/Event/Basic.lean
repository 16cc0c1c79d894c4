import LanguageClient.Value.Basic

/-!
What a backend tells its client. A notification of one of six methods is an event; members that the
event does not have are ignored, members that are missing have a default.
-/

namespace LanguageClient

/-- Methods a client sends on its own. -/
def updateDataModel : String := "$/updateDataModel"
def didChangeVisibleRanges : String := "$/didChangeVisibleRanges"
def statusClick : String := "$/status/click"

/-- What has happened. The members hold whatever the backend has sent. -/
inductive Happening where
  | command (name data : Value)
  | statusShow
  | statusHide
  | statusReport (text tooltip : Value)
  | hint (uri edits : Value)
  | comment (uri ranges : Value)
  | other (name : String)
deriving DecidableEq, Repr

structure Event where
  root : Option String
  what : Happening
deriving DecidableEq, Repr

namespace Happening

def typeName : Happening → String
  | .command .. => "command"
  | .statusShow => "status_show"
  | .statusHide => "status_hide"
  | .statusReport .. => "status_report"
  | .hint .. => "hint"
  | .comment .. => "lua_comment"
  | .other name => name

/-- The happening a notification tells of, if its method is known. -/
def ofNotification? (method : String) (params : Value) : Option Happening :=
  let member (name : String) (fallback : Value) : Value := (params.field? name).getD fallback
  if method = "$/command" then some (.command (member "command" (.text "")) (member "data" .null))
  else if method = "$/status/show" then some .statusShow
  else if method = "$/status/hide" then some .statusHide
  else if method = "$/status/report" then
    some (.statusReport (member "text" (.text "")) (member "tooltip" (.text "")))
  else if method = "$/hint" then some (.hint (member "uri" (.text "")) (member "edits" (.list [])))
  else if method = "$/luaComment" then
    some (.comment (member "uri" (.text "")) (member "ranges" (.list [])))
  else none

end Happening

namespace Event

def ofNotification? (method : String) (params : Value) (root : Option String) : Option Event :=
  (Happening.ofNotification? method params).map fun what => ⟨root, what⟩

theorem ofNotification?_root {method : String} {params : Value} {root : Option String} {e : Event}
    (h : ofNotification? method params root = some e) : e.root = root := by
  simp only [ofNotification?, Option.map_eq_some_iff] at h
  obtain ⟨_, _, rfl⟩ := h
  rfl

end Event
end LanguageClient
