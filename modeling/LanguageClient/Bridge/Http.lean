import LanguageClient.Failure
import LanguageClient.Json.Printer
import LanguageClient.Json.Reader
import LanguageClient.Text.Blank
import LanguageClient.Text.Utf8

/-!
Requests to the bridge and its answers. A snapshot is posted to `/update`; the last one accepted is
read at `/last`.
-/

namespace LanguageClient.Bridge

open Text (Bytes)

structure Request where
  method : String
  path : String
  headers : List (String × String)
  body : Bytes
deriving DecidableEq, Repr, Inhabited

/-- An answer; a refusal before the request is handled has no content to speak of. -/
structure Response where
  status : Nat
  /-- Its type and its text. -/
  content : Option (String × String)
deriving DecidableEq, Repr, Inhabited

/-- A snapshot of the data model. -/
structure Payload where
  datamodel : Value
  version : Option String
deriving DecidableEq, Repr, Inhabited

namespace Response

def json (status : Nat) (v : Value) : Response :=
  ⟨status, some ("application/json", Json.render Json.spaced v)⟩

def accepted : Response := json 200 (.record [("success", .bool true)])

def rejected (reason : String) : Response :=
  json 400 (.record [("success", .bool false), ("reason", .text reason)])

def bare (status : Nat) : Response := ⟨status, none⟩

end Response

inductive Route where
  | update
  | last
deriving DecidableEq, Repr

namespace Route

def all : List Route := [.update, .last]

def path : Route → String
  | .update => "/update"
  | .last => "/last"

/-- What can be read can also be asked for its head. -/
def methods : Route → List String
  | .update => ["POST"]
  | .last => ["GET", "HEAD"]

end Route

namespace Request

/-- The path without the query. -/
def target (r : Request) : String :=
  String.ofList (r.path.toList.takeWhile fun c => c ≠ '?' && c ≠ '#')

/-- The route of a request, or the status it is refused with. -/
def route (r : Request) : Except Nat Route :=
  match Route.all.find? fun route => route.path = r.target with
  | none => .error 404
  | some route => if route.methods.contains r.method then .ok route else .error 405

def header? (name : String) (r : Request) : Option String :=
  (r.headers.find? fun h => Text.lower h.1 = name).map (·.2)

/-- The pieces of a text between semicolons, without blanks at their ends. -/
def pieces (s : String) : List String := (s.splitOn ";").map Text.trim

/-- The character set the content is said to be in. -/
def charset (r : Request) : String :=
  let parameters := match r.header? "content-type" with
    | some s => (pieces s).drop 1
    | none => []
  let named := parameters.findSome? fun p => match p.splitOn "=" with
    | [name, value] =>
      if Text.lower (Text.trim name) = "charset" then
        some (String.ofList ((Text.trim value).toList.filter (· ≠ '"')))
      else none
    | _ => none
  named.getD "utf-8"

end Request

/-- A set of characters that bytes can be read in. -/
inductive Charset where
  | utf8
  | latin1
  | ascii
deriving DecidableEq, Repr

namespace Charset

/-- A character set by its name, in any case, with any of three marks between its parts. -/
def ofName? (name : String) : Option Charset :=
  let plain := String.ofList ((Text.lower name).toList.filter fun c =>
    !(c = '-' || c = '_' || c = ' '))
  if ["utf8", "u8", "utf", "cp65001"].contains plain then some .utf8
  else if ["latin1", "latin", "l1", "iso88591", "88591", "cp819", "8859"].contains plain then
    some .latin1
  else if ["ascii", "usascii", "646"].contains plain then some .ascii
  else none

def decode? (set : Charset) (bytes : Bytes) : Option (List Char) :=
  match set with
  | .utf8 => Text.Utf8.decode? bytes
  | .latin1 => some (bytes.map fun b => Char.ofNat b.toNat)
  | .ascii => if bytes.all (· < 128) then some (bytes.map fun b => Char.ofNat b.toNat) else none

end Charset

/-- What a posted body comes to. -/
inductive Reading where
  | payload (p : Payload)
  | rejected (reason : String)
deriving DecidableEq, Repr

def missingBody : Reading := .rejected "Missing JSON"

def missingModel : Reading := .rejected "Missing body.DataModel"

/-- The snapshot in the members of a body. -/
def ofMembers (members : Entries) : Reading :=
  match Entries.field? "DataModel" members with
  | none => missingModel
  | some datamodel =>
    if !datamodel.truthy then missingModel
    else match Entries.field? "Version" members with
      | none | some .null => .payload ⟨datamodel, none⟩
      | some v => .payload ⟨datamodel, some v.display⟩

/-- The snapshot in a body. What is not the text of a mapping with members is as good as missing. -/
def read (r : Request) : Except Failure Reading :=
  if r.body.isEmpty then .ok missingBody
  else match Charset.ofName? r.charset with
    | none => .error (.unknownCharset r.charset)
    | some set => match (set.decode? r.body).bind Json.read? with
      | some (.map (e :: rest)) => .ok (ofMembers (e :: rest))
      | _ => .ok missingBody

/-- A body may have fewer bytes than the limit; a limit of zero is none. -/
def tooLarge (limit : Int) (body : Bytes) : Bool :=
  !body.isEmpty && limit ≠ 0 && limit ≤ body.length

/-- The last snapshot: texts as they are, other values as JSON. -/
def lastText (last : Option Payload) : Response :=
  match last with
  | none => ⟨200, some ("text/plain", "")⟩
  | some p => match p.datamodel with
    | .text s => ⟨200, some ("text/plain", s)⟩
    | v => .json 200 v

/-- What a notification of a snapshot says. -/
def Payload.params (p : Payload) : Value :=
  .record [("datamodel", p.datamodel), ("version", match p.version with
    | some s => .text s
    | none => .null)]

theorem read_empty {r : Request} (h : r.body = []) : read r = .ok missingBody := by
  simp [read, h]

end LanguageClient.Bridge
