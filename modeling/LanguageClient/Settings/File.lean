import LanguageClient.Settings.Basic
import LanguageClient.Yaml.Reader

/-!
Settings from a file: a mapping with the settings for everything, and those of each folder.
-/

namespace LanguageClient.Settings

/-- A member of the file; one that counts as false has nothing in it. -/
def section? (name : String) (members : Entries) : Value :=
  match Entries.field? name members with
  | some v => if v.truthy then v else .map []
  | none => .map []

/-- Refuses what has no size. -/
def sized (v : Value) : Except Failure Unit :=
  match v with
  | .text _ | .list _ | .map _ => .ok ()
  | v => .error (.noLength v.kind)

/-- The settings that a file holds. -/
def ofFileValue (path : FilePath) (v : Value) : Except Failure Settings :=
  match v with
  | .map members => do
    let global := section? "settings" members
    let folders := section? "folders" members
    sized global
    sized folders
    ofValues global folders
  | v => if v.truthy then .error (.notMapping path.text) else .ok empty

/-- The settings in the text of a file, or why there are none. -/
def ofFile (path : FilePath) (text : Option String) : Except Failure Settings :=
  match text with
  | none => .error .noSuchFile
  | some text => (Yaml.read text).bind (ofFileValue path)

theorem ofFileValue_null (path : FilePath) : ofFileValue path .null = .ok empty := rfl

end LanguageClient.Settings
