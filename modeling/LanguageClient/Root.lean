import LanguageClient.Text.Blank
import LanguageClient.Uri.Basic

/-!
A root: a folder of the workspace that can have a backend of its own.
-/

namespace LanguageClient

structure Root where
  uri : String
  name : String
deriving DecidableEq, Repr, Inhabited

namespace Root

/-- The root of a path, named for its last segment unless a name is given. -/
def ofPath (value name : String) : Except Failure Root := do
  let uri ← Uri.ofText value
  let path ← Uri.path uri
  .ok ⟨uri, if name.isEmpty then (FilePath.ofText path).name else name⟩

/-- What makes two roots one: the address without slashes at its end. -/
def key (r : Root) : String :=
  let trimmed := Text.dropEndWhile (· = '/') r.uri.toList
  if trimmed.isEmpty then r.uri else String.ofList trimmed

def folder (r : Root) : String := Uri.folder r.uri

def path (r : Root) : Except Failure String := Uri.path r.uri

/-- How many segments its path has. -/
def depth (r : Root) : Except Failure Nat :=
  r.path.map fun p => ((FilePath.splitAt '/' p.toList).filter (· ≠ [])).length

end Root
end LanguageClient
