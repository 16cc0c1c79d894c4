import LanguageClient.Proofs.World.Core
import LanguageClient.Proofs.World.Offstage

/-!
The desk of a workspace: what its views are told by. It is kept by the workspace and the roster
alone; connections, sessions and backends leave it as it is.
-/

namespace LanguageClient

open Schedule

/-- The roots, the relay of each key, the views, and the session of each relay by its number. -/
structure Desk where
  resolver : Resolver
  relays : List (String × RelayId)
  views : Views
  served : List SessionId

namespace World

def desk (w : World) : Desk where
  resolver := w.workspace.resolver
  relays := w.workspace.relays
  views := w.workspace.views
  served := w.relays.map (·.session)

theorem desk_setRelay (r : RelayId) (w : World) {f : Relay → Relay} (h : ∀ x, (f x).session = x.session) :
    (w.setRelay r f).desk = w.desk := by
  simp only [desk, setRelay, map_modify_same h]

theorem offstage_desk : Offstage desk where
  loop _ _ := rfl
  current _ _ := rfl
  backends _ _ := rfl
  plans _ _ := rfl
  connections _ _ := rfl
  sights _ _ := rfl
  sessions _ _ := rfl
  shell _ _ := rfl
  settings _ _ := rfl
  roster _ _ := rfl
  relay w r _ same := desk_setRelay r w same

end World
end LanguageClient
