import LanguageClient.Root

/-!
The roots of a workspace, and which of them owns a document. A root inside another one never owns
anything: its documents belong to the outermost root around it.
-/

namespace LanguageClient

structure Resolver where
  /-- Each key once, in the order in which the keys were first added. -/
  roots : List Root
  /-- The roots by length of folder, while that order is known. -/
  sorted? : Option (List Root)
deriving Repr, Inhabited

namespace Resolver

/-- A root with a known key takes the place of the one before it. -/
def put (r : Root) : List Root → List Root
  | [] => [r]
  | s :: rest => if s.key = r.key then r :: rest else s :: put r rest

def ofRoots (roots : List Root) : Resolver :=
  ⟨roots.foldl (fun done r => put r done) [], none⟩

def contains (r : Root) (res : Resolver) : Bool :=
  res.roots.any fun s => s.key = r.key

def add (r : Root) (res : Resolver) : Resolver :=
  ⟨put r res.roots, none⟩

/-- Removing a root that is not there changes nothing. -/
def remove (r : Root) (res : Resolver) : Resolver :=
  if res.contains r then ⟨res.roots.filter fun s => s.key ≠ r.key, none⟩ else res

def replace (roots : List Root) (_ : Resolver) : Resolver := ofRoots roots

def shorter (r s : Root) : Bool := r.folder.length ≤ s.folder.length

/-- Outer roots before the roots inside them. -/
def sorted (res : Resolver) : List Root :=
  res.sorted?.getD (res.roots.mergeSort shorter)

/-- Keeps the sorted roots for the next question. -/
def remember (res : Resolver) : Resolver := { res with sorted? := some res.sorted }

def holds (r : Root) (uri : String) : Bool :=
  r.folder.toList.isPrefixOf uri.toList || Uri.folder uri = r.folder

/-- The innermost root around an address. -/
def innermost? (uri : String) (res : Resolver) : Option Root :=
  (res.sorted.filter (holds · uri)).getLast?

/-- The outermost root around a root, or the root itself. -/
def outermost (r : Root) (res : Resolver) : Root :=
  (res.sorted.find? fun s => s.folder.toList.isPrefixOf r.folder.toList).getD r

def containing? (document : String) (res : Resolver) : Except Failure (Option Root) :=
  (Uri.ofText document).map fun uri => res.innermost? uri

/-- The root that owns a document. -/
def resolve? (document : String) (res : Resolver) : Except Failure (Option Root) :=
  (res.containing? document).map fun r? => r?.map res.outermost

theorem sorted_remember (res : Resolver) : res.remember.sorted = res.sorted := by
  simp [remember, sorted]

theorem innermost?_remember (uri : String) (res : Resolver) :
    res.remember.innermost? uri = res.innermost? uri := by
  simp [innermost?, sorted_remember]

theorem sorted_ofRoots (roots : List Root) :
    (ofRoots roots).sorted = (ofRoots roots).roots.mergeSort shorter := rfl

end Resolver
end LanguageClient
