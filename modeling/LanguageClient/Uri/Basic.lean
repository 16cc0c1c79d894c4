import LanguageClient.Uri.Authority
import LanguageClient.Uri.Percent

/-!
Addresses of documents and folders. A plain path becomes a `file` address; of a `file` address the
path can be read back.
-/

namespace LanguageClient.Uri

/-- Whether `part` occurs in a text. -/
def occurs (part : List Char) : List Char → Bool
  | [] => part.isEmpty
  | c :: rest => part.isPrefixOf (c :: rest) || occurs part rest

/-- The address of an absolute path. -/
def ofPath (p : FilePath) : String :=
  String.ofList ("file://".toList ++ encode (Text.Utf8.encode p.chars))

/-- A text that is an address already stays; any other is a path. -/
def isAddress (s : String) : Bool :=
  occurs "://".toList s.toList || "untitled:".toList.isPrefixOf s.toList

def ofText (s : String) : Except Failure String :=
  if isAddress s then .ok s
  else (FilePath.ofText s).expandHome.map fun p => ofPath p.absolute

/-- The part before the first colon; nothing without a colon. -/
def scheme (uri : String) : String :=
  let cs := uri.toList
  if cs.contains ':' then String.ofList (cs.takeWhile (· ≠ ':')) else ""

/-- The address with a slash at its end, as every address below it starts. -/
def folder (uri : String) : String :=
  if uri.toList.getLast? = some '/' then uri else uri ++ "/"

/-- A scheme and what follows its colon, if the text starts with a letter and goes on with letters,
digits and three marks up to a colon. -/
def splitScheme (cs : List Char) : List Char × List Char :=
  let isSchemeChar (c : Char) : Bool := c.isAlphanum || c = '+' || c = '-' || c = '.'
  let name := cs.takeWhile (· ≠ ':')
  match name, cs.drop name.length with
  | first :: _, ':' :: rest =>
    if first.isAlpha && name.all isSchemeChar then (name.map Char.toLower, rest) else ([], cs)
  | _, _ => ([], cs)

/-- What follows the authority, if there is one. -/
def afterAuthority (cs : List Char) : Except Failure (List Char) :=
  match cs with
  | '/' :: '/' :: rest =>
    let isEnd (c : Char) : Bool := c = '/' || c = '?' || c = '#'
    match Authority.check (rest.takeWhile (!isEnd ·)) with
    | .ok () => .ok (rest.dropWhile (!isEnd ·))
    | .error fault => .error (.badAuthority fault)
  | _ => .ok cs

/-- Control characters and spaces in front are ignored, tabs and line ends everywhere. -/
def clean (cs : List Char) : List Char :=
  (cs.dropWhile fun c => c.toNat ≤ 0x20).filter fun c => !(c = '\t' || c = '\r' || c = '\n')

/-- The path of a `file` address, decoded, without query and fragment; any other text is shown as it
is. -/
def path (uri : String) : Except Failure String := do
  let (scheme, rest) := splitScheme (clean uri.toList)
  let rest ← afterAuthority rest
  if scheme ≠ "file".toList then .ok uri
  else
    let path := (rest.takeWhile (· ≠ '#')).takeWhile (· ≠ '?')
    let decoded := decode path
    .ok (if decoded.isEmpty then "/" else String.ofList decoded)

theorem folder_folder (uri : String) : folder (folder uri) = folder uri := by
  by_cases h : uri.toList.getLast? = some '/'
  · simp [folder, h]
  · simp [folder, h, String.toList_append]

theorem ofText_address {s : String} (h : isAddress s = true) : ofText s = .ok s := by
  simp [ofText, h]

end LanguageClient.Uri
