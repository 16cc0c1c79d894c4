import LanguageClient.Session.State
import LanguageClient.Value.Display

/-!
Every way in which an operation can fail, by cause, and the text each cause is shown with.
-/

namespace LanguageClient

/-- What is wrong with a frame. -/
inductive FrameFault where
  | lineTooLong (ended : Bool)
  | headerTooLong
  | noLength (headers : Entries)
  | undecodable
  | notMapping (kind : String)
deriving DecidableEq, Repr

def FrameFault.message : FrameFault → String
  | .lineTooLong true => "Header line too long: Separator is found, but chunk is longer than limit"
  | .lineTooLong false =>
    "Header line too long: Separator is not found, and chunk exceed the limit"
  | .headerTooLong => "Excessively long header block"
  | .noLength headers => "Invalid headers: " ++ (Value.map headers).display
  | .undecodable => "Undecodable body"
  | .notMapping kind => "Expected a JSON object, got " ++ kind

/-- Why nothing can be sent any more. -/
inductive ClosedCause where
  | ended
  | brokenPipe
deriving DecidableEq, Repr

def ClosedCause.message : ClosedCause → String
  | .ended => "transport closed"
  | .brokenPipe => "Broken pipe"

/-- What is wrong with the authority of an address. -/
inductive AuthorityFault where
  | brackets
  | future
  | shortInBrackets
  | notAddress (host : String)
  /-- It holds a sign that stands for a mark between the parts of an address. -/
  | signs (authority : String)
deriving DecidableEq, Repr

def AuthorityFault.message : AuthorityFault → String
  | .brackets => "Invalid IPv6 URL"
  | .future => "IPvFuture address is invalid"
  | .shortInBrackets => "An IPv4 address cannot be in brackets"
  | .notAddress host =>
    Text.quoted host ++ " does not appear to be an IPv4 or IPv6 address"
  | .signs authority =>
    "netloc '" ++ authority ++ "' contains invalid characters under NFKC normalization"

inductive Failure where
  /-- A backend could not be started or did not answer the handshake. -/
  | launch (root reason : String)
  /-- A notification could not be delivered. -/
  | forwarding (method reason : String)
  | notReady (method root state : String)
  | frame (fault : FrameFault)
  | closed (name : String) (cause : ClosedCause)
  /-- The other side answered a request with an error. -/
  | response (code message data : Value)
  | timeout
  | cancelled
  /-- A refusal of the operating system, in its words. -/
  | system (text : String)
  | noSuchFile
  | badYaml
  | unknownUser
  | unknownCommand (name : String)
  | unknownCharset (name : String)
  | notInteger (text : String)
  | notFloat (text : String)
  | missingNumber
  | infiniteNumber
  | notNumeric (kind : String)
  | noMember (kind member : String)
  | notIterable (kind : String)
  | notContainer (kind : String)
  | noLength (kind : String)
  | unhashable (kind : String)
  /-- The element at `index` of what should be pairs has another length. -/
  | notPair (index length : Nat)
  | notSequence (index : Nat)
  | badAuthority (fault : AuthorityFault)
  | badTransition (current target : SessionState)
  | unknownState (name : String)
  | unclosedQuote
  | unfinishedEscape
  | keyRequired
  /-- A settings file holds something other than a mapping. -/
  | notMapping (path : String)
  /-- Something other than a text was to be shown. -/
  | notText
  | unknownLevel (name : String)
  | notLevel
  /-- A handler gave up, with its own words. -/
  | refused (text : String)
deriving DecidableEq, Repr

namespace Failure

/-- A text in quotes, cut after two hundred characters. -/
def cutQuoted (text : String) : String :=
  String.ofList ((Text.quotedChars text.toList).take 200)

def message : Failure → String
  | .launch root reason => "Failed to launch backend for " ++ root ++ ": " ++ reason
  | .forwarding method reason => "Cannot forward " ++ method ++ ": " ++ reason
  | .notReady method root state =>
    "Cannot forward " ++ method ++ ": session " ++ root ++ " is " ++ state
  | .frame fault => fault.message
  | .closed name cause => name ++ ": " ++ cause.message
  | .response code message _ => "JSON-RPC error " ++ code.display ++ ": " ++ message.display
  | .timeout | .cancelled => ""
  | .system text => text
  | .noSuchFile => "No such file or directory"
  | .badYaml => "not YAML"
  | .unknownUser => "Could not determine home directory."
  | .unknownCommand name => "no such command: " ++ name
  | .unknownCharset name => "unknown encoding: " ++ name
  | .notInteger text => "invalid literal for int() with base 10: " ++ cutQuoted text
  | .notFloat text => "could not convert string to float: " ++ Text.quoted text
  | .missingNumber => "cannot convert float NaN to integer"
  | .infiniteNumber => "cannot convert float infinity to integer"
  | .notNumeric kind =>
    "int() argument must be a string, a bytes-like object or a real number, not '" ++ kind ++ "'"
  | .noMember kind member => "'" ++ kind ++ "' object has no attribute '" ++ member ++ "'"
  | .notIterable kind => "'" ++ kind ++ "' object is not iterable"
  | .notContainer kind => "argument of type '" ++ kind ++ "' is not iterable"
  | .noLength kind => "object of type '" ++ kind ++ "' has no len()"
  | .unhashable kind => "unhashable type: '" ++ kind ++ "'"
  | .notPair index length =>
    "dictionary update sequence element #" ++ toString index ++ " has length " ++ toString length ++
      "; 2 is required"
  | .notSequence index =>
    "cannot convert dictionary update sequence element #" ++ toString index ++ " to a sequence"
  | .badAuthority fault => fault.message
  | .badTransition current target =>
    let allowed := current.next.map SessionState.name
    "Invalid state transition: " ++ current.name ++ " -> " ++ target.name ++ ". Allowed from " ++
      current.name ++ ": " ++
      (if allowed.isEmpty then "none (terminal)" else String.intercalate ", " allowed)
  | .unknownState name => Text.quoted name ++ " is not a valid SessionState"
  | .unclosedQuote => "No closing quotation"
  | .unfinishedEscape => "No escaped character"
  | .keyRequired => "lua.config requires a key"
  | .notMapping path => path ++ ": top level must be a mapping"
  | .notText => "Only str or Text can be appended to Text"
  | .unknownLevel name => "Unknown level: " ++ Text.quoted name
  | .notLevel => "Level not an integer or a valid string"
  | .refused text => text

/-- A value that was given is not one that can be used. -/
def isBadValue : Failure → Bool
  | .notInteger _ | .notFloat _ | .missingNumber | .notPair .. | .badAuthority _ | .badTransition ..
  | .unknownState _ | .unclosedQuote | .unfinishedEscape | .keyRequired | .notMapping _
  | .unknownLevel _ | .refused _ => true
  | _ => false

/-- The class a failure is shown under. -/
def className : Failure → String
  | .launch .. => "LaunchError"
  | .forwarding .. => "ForwardingError"
  | .notReady .. => "SessionNotReadyError"
  | .frame _ => "ProtocolError"
  | .closed .. => "ConnectionClosedError"
  | .response .. => "ResponseError"
  | .timeout => "TimeoutError"
  | .cancelled => "CancelledError"
  | .system _ => "OSError"
  | .noSuchFile => "FileNotFoundError"
  | .badYaml => "YAMLError"
  | .unknownUser | .unknownCommand _ => "RuntimeError"
  | .unknownCharset _ => "LookupError"
  | .infiniteNumber => "OverflowError"
  | .noMember .. => "AttributeError"
  | .notNumeric _ | .notIterable _ | .notContainer _ | .noLength _ | .unhashable _
  | .notSequence _ | .notText | .notLevel => "TypeError"
  | .notInteger _ | .notFloat _ | .missingNumber | .notPair .. | .badAuthority _ | .badTransition ..
  | .unknownState _ | .unclosedQuote | .unfinishedEscape | .keyRequired | .notMapping _
  | .unknownLevel _ | .refused _ => "ValueError"

/-- Failures of the client itself, which its callers are ready for. -/
def isOwn : Failure → Bool
  | .launch .. | .forwarding .. | .notReady .. | .frame _ | .closed .. | .response .. => true
  | _ => false

/-- A failure inside another message. -/
def display (f : Failure) : String :=
  match f with
  | .timeout | .cancelled => f.className ++ "()"
  | _ => f.className ++ "(" ++ Text.quoted f.message ++ ")"

/-- The failure that an error answer tells of; what is no mapping tells nothing. -/
def ofResponse (payload : Value) : Except Failure Failure :=
  match payload with
  | .map entries =>
    let member (name : String) (fallback : Value) : Value :=
      (Entries.field? name entries).getD fallback
    .ok (.response (member "code" (.text "unknown")) (member "message" (.text "Unknown error"))
      (member "data" .null))
  | v => .error (.noMember v.kind "get")

theorem className_of_isBadValue {f : Failure} (h : f.isBadValue = true) :
    f.className = "ValueError" := by
  cases f <;> simp_all [isBadValue, className]

theorem isOwn_notReady (method root state : String) : (notReady method root state).isOwn = true :=
  rfl

end Failure
end LanguageClient
