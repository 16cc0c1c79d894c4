import LanguageClient.Root
import LanguageClient.Value.Entries
import LanguageClient.Value.Integer

/-!
Settings in layers: one for everything, and one for each folder. A key is looked up in the folders
around an address, the innermost first, then in the layer for everything, then among the defaults.
-/

namespace LanguageClient

/-- What a session is started with. -/
structure RootSettings where
  develop : Value
  debuggerPort : Value
  debuggerWait : Value
  parameters : Value
deriving DecidableEq, Repr, Inhabited

structure Settings where
  global : Entries
  /-- Each folder once, with a slash at its end. -/
  folders : List (String × Entries)
deriving DecidableEq, Repr, Inhabited

namespace Settings

def developEnable : String := "robloxLsp.develop.enable"
def debuggerPortKey : String := "robloxLsp.develop.debuggerPort"
def debuggerWaitKey : String := "robloxLsp.develop.debuggerWait"
def parametersKey : String := "robloxLsp.misc.parameters"
def serverPortKey : String := "robloxLsp.misc.serverPort"

def defaults : Entries := [
  (.text developEnable, .bool false),
  (.text debuggerPortKey, .int 11412),
  (.text debuggerWaitKey, .bool false),
  (.text parametersKey, .text ""),
  (.text serverPortKey, .int 0)]

def empty : Settings := ⟨[], []⟩

/-- The address a value names. -/
def address (v : Value) : Except Failure String :=
  match v with
  | .text s => Uri.ofText s
  | .list items =>
    .error (.noMember v.kind (if items.contains (.text "://") then "endswith" else "startswith"))
  | .map entries =>
    .error (.noMember v.kind
      (if Entries.has (.text "://") entries then "endswith" else "startswith"))
  | _ => .error (.notContainer v.kind)

/-- The folder a value names. -/
def location (v : Value) : Except Failure String :=
  (address v).map Uri.folder

/-- A folder named again takes the values given last. -/
def setFolder (folder : String) (values : Entries) :
    List (String × Entries) → List (String × Entries)
  | [] => [(folder, values)]
  | e :: rest =>
    if e.1 = folder then (folder, values) :: rest else e :: setFolder folder values rest

/-- Layers from the entries of a mapping, in order. -/
def foldersOf (done : List (String × Entries)) : Entries → Except Failure (List (String × Entries))
  | [] => .ok done
  | (k, values) :: rest => do
    let folder ← location (.ofKey k)
    let values ← Entries.ofTruthy values
    foldersOf (setFolder folder values done) rest

/-- The store of two values; each may count as false. -/
def ofValues (global folders : Value) : Except Failure Settings := do
  let global ← Entries.ofTruthy global
  let folders ← match folders with
    | .map entries => .ok entries
    | v => if v.truthy then .error (.noMember v.kind "items") else .ok []
  return ⟨global, ← foldersOf [] folders⟩

/-- The folders around a place, the innermost first. -/
def around (place : String) (s : Settings) : List (String × Entries) :=
  (s.folders.filter fun f => f.1.toList.isPrefixOf place.toList).mergeSort
    fun f g => g.1.length ≤ f.1.length

/-- The value of a key in the first layer that has it. -/
def firstIn (k : Key) : List Entries → Option Value
  | [] => none
  | layer :: rest => (layer.lookup? k).or (firstIn k rest)

/-- The value of a key at a place, or outside every folder. -/
def valueAt (k : Key) (place : Option String) (s : Settings) : Option Value :=
  let inner := match place with
    | some p => (s.around p).map (·.2)
    | none => []
  firstIn k (inner ++ [s.global, defaults])

/-- Where a value points to; nothing points outside every folder. -/
def placeOf : Value → Except Failure (Option String)
  | .null => .ok none
  | v => (location v).map some

def get (key uri fallback : Value) (s : Settings) : Except Failure Value := do
  let place ← placeOf uri
  let k ← key.toKey
  return (s.valueAt k place).getD fallback

/-- Writes into the innermost folder around a place, or into a new one there. -/
def writeFolder (place : String) (k : Key) (v : Value) (s : Settings) : Settings :=
  let folder := ((s.around place).head?.map (·.1)).getD place
  let values := ((s.folders.find? fun f => f.1 = folder).map (·.2)).getD []
  { s with folders := setFolder folder (Entries.put k v values) s.folders }

def writeGlobal (k : Key) (v : Value) (s : Settings) : Settings :=
  { s with global := s.global.put k v }

/-- A new folder that cannot take the key stays, empty. -/
def openFolder (place : String) (s : Settings) : Settings :=
  if (s.around place).isEmpty then { s with folders := setFolder place [] s.folders } else s

/-- The settings after writing a value, and why it could not be written if it was not. -/
def update (key value uri : Value) (everywhere : Bool) (s : Settings) :
    Settings × Except Failure Unit :=
  if everywhere || uri = .null then
    match key.toKey with
    | .error e => (s, .error e)
    | .ok k => (s.writeGlobal k value, .ok ())
  else match location uri with
    | .error e => (s, .error e)
    | .ok place => match key.toKey with
      | .error e => (s.openFolder place, .error e)
      | .ok k => (s.writeFolder place k value, .ok ())

def ownValue (name : String) (place : Option String) (s : Settings) : Value :=
  (s.valueAt (.text name) place).getD .null

/-- What a session of this root starts with. -/
def forRoot (root : Option Root) (s : Settings) : Except Failure RootSettings := do
  let place ← match root with
    | some r => (Uri.ofText r.uri).map fun uri => some (Uri.folder uri)
    | none => .ok none
  let port ← (s.ownValue debuggerPortKey place).toInt
  let parameters := s.ownValue parametersKey place
  return {
    develop := .bool (s.ownValue developEnable place).affirms
    debuggerPort := .int port
    debuggerWait := .bool (s.ownValue debuggerWaitKey place).affirms
    parameters := .text (if parameters.truthy then parameters.display else "") }

/-- The port to listen on; what is no number turns listening off, but an infinity is a failure. -/
def bridgePort (s : Settings) : Except Failure Int :=
  match (s.ownValue serverPortKey none).toInt with
  | .ok n => .ok n
  | .error .infiniteNumber => .error .infiniteNumber
  | .error _ => .ok 0

/-- A value with one more item; what is no list starts a new one. -/
def appended (current item : Value) : Value :=
  match current with
  | .list items => .list (items ++ [item])
  | _ => .list [item]

/-- What a backend asks to have set: `set` writes a value, `add` appends one to a list. -/
def applyCommand (data : Value) (s : Settings) : Settings × Except Failure Unit :=
  match data with
  | .map entries =>
    let member (name : String) : Value := (Entries.field? name entries).getD .null
    let key := member "key"
    let uri := member "uri"
    let everywhere := (member "global").truthy
    if !key.truthy then (s, .error .keyRequired)
    else if member "action" = .text "add" then
      match s.get key uri .null with
      | .error e => (s, .error e)
      | .ok current => s.update key (appended current (member "value")) uri everywhere
    else if member "action" = .text "set" then s.update key (member "value") uri everywhere
    else (s, .ok ())
  | v => (s, .error (.noMember v.kind "get"))

theorem valueAt_writeGlobal (k k' : Key) (v : Value) (s : Settings) :
    (s.writeGlobal k v).valueAt k' none =
      if k.same k' then some v else s.valueAt k' none := by
  by_cases h : k.same k' <;>
    simp [valueAt, writeGlobal, firstIn, Entries.lookup?_put, h]

theorem around_writeGlobal (place : String) (k : Key) (v : Value) (s : Settings) :
    (s.writeGlobal k v).around place = s.around place := rfl

end Settings
end LanguageClient
