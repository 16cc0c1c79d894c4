import LanguageClient.Yaml.Token

/-!
The one document of a settings file as a tree. Names given to parts of it have been replaced by
these parts.
-/

namespace LanguageClient.Yaml

inductive Node where
  /-- `isPlain`: without quotes, so that it may be more than a text. -/
  | scalar (tag : Option String) (text : String) (isPlain : Bool)
  | list (tag : Option String) (items : List Node)
  | map (tag : Option String) (entries : List (Node × Node))
deriving Repr, Inhabited

namespace Node

def empty : Node := .scalar none "" true

/-- Parts of the document by the names given to them so far. -/
abbrev Names := List (String × Node)

/-- What is left of the tokens, and the names so far. -/
abbrev Rest := List Token × Names

/-- A node from the tokens in front, if they are one. -/
abbrev Parsed := Option (Node × Rest)

/-- The name and the tag of a node, in either order, and the tokens after them. -/
def properties (ts : List Token) : Option String × Option String × List Token :=
  match ts with
  | .anchor a :: .tag t :: rest | .tag t :: .anchor a :: rest => (some a, some t, rest)
  | .anchor a :: rest => (some a, none, rest)
  | .tag t :: rest => (none, some t, rest)
  | _ => (none, none, ts)

/-- Each name is given once. -/
def nameNode (name : Option String) (r : Node × Rest) : Parsed :=
  match name with
  | none => some r
  | some a =>
    let (node, ts, names) := r
    if names.any fun e => e.1 = a then none else some (node, ts, names ++ [(a, node)])

/-- Whether one of some tokens comes next; at the end none does. -/
def isNext (wanted : List Token) (ts : List Token) : Bool :=
  match ts with
  | t :: _ => wanted.contains t
  | [] => false

/-- Where a node of a document may be missing. -/
def lacks (wanted : List Token) (ts : List Token) : Bool := ts.isEmpty || isNext wanted ts

mutual

/-- A node. A list without further indentation counts as one where the flag says so. -/
def parse (fuel : Nat) (inBlock loose : Bool) (r : Rest) : Parsed :=
  match fuel with
  | 0 => none
  | fuel + 1 => match r with
    | (.alias a :: ts, names) => (names.find? fun e => e.1 = a).map fun e => (e.2, ts, names)
    | (ts, names) =>
      let (name, tag, ts) := properties ts
      let bare : Parsed :=
        if name.isSome || tag.isSome then some (.scalar tag "" tag.isNone, ts, names) else none
      let node : Parsed := match ts with
        | .scalar text isPlain :: rest => some (.scalar tag text isPlain, rest, names)
        | .flowSequence :: rest => flowItems fuel tag [] (rest, names)
        | .flowMapping :: rest => flowEntries fuel tag [] (rest, names)
        | .blockSequence :: rest =>
          if inBlock then blockItems fuel true tag [] (rest, names) else bare
        | .blockMapping :: rest => if inBlock then blockEntries fuel tag [] (rest, names) else bare
        | .item :: _ => if loose then blockItems fuel false tag [] (ts, names) else bare
        | _ => bare
      node.bind (nameNode name)

/-- The items of a list in a block, up to its end; one without further indentation has no end of its
own. -/
def blockItems (fuel : Nat) (ends : Bool) (tag : Option String) (done : List Node) (r : Rest) :
    Parsed :=
  match fuel with
  | 0 => none
  | fuel + 1 => match r with
    | (.item :: ts, names) =>
      let stops : List Token :=
        if ends then [.item, .blockEnd] else [.item, .key, .value, .blockEnd]
      if lacks stops ts then blockItems fuel ends tag (done ++ [.empty]) (ts, names)
      else match parse fuel true false (ts, names) with
        | some (node, r) => blockItems fuel ends tag (done ++ [node]) r
        | none => none
    | (.blockEnd :: ts, names) =>
      some (.list tag done, if ends then (ts, names) else (.blockEnd :: ts, names))
    | r => if ends then none else some (.list tag done, r)

/-- A key or a value of a mapping in a block, which may be missing. -/
def blockPart (fuel : Nat) (r : Rest) : Parsed :=
  match fuel with
  | 0 => none
  | fuel + 1 =>
    if lacks [.key, .value, .blockEnd] r.1 then some (.empty, r) else parse fuel true true r

def blockEntries (fuel : Nat) (tag : Option String) (done : List (Node × Node)) (r : Rest) :
    Parsed :=
  match fuel with
  | 0 => none
  | fuel + 1 => match r with
    | (.key :: ts, names) => match blockPart fuel (ts, names) with
      | none => none
      | some (k, .value :: ts, names) => match blockPart fuel (ts, names) with
        | none => none
        | some (v, r) => blockEntries fuel tag (done ++ [(k, v)]) r
      | some (k, r) => blockEntries fuel tag (done ++ [(k, .empty)]) r
    | (.blockEnd :: ts, names) => some (.map tag done, ts, names)
    | _ => none

/-- A node in brackets, which may be missing before some tokens. -/
def flowPart (fuel : Nat) (stops : List Token) (r : Rest) : Parsed :=
  match fuel with
  | 0 => none
  | fuel + 1 => if isNext stops r.1 then some (.empty, r) else parse fuel false false r

/-- The value after a key in brackets, if there is one. -/
def flowValue (fuel : Nat) (close : Token) (r : Rest) : Parsed :=
  match fuel with
  | 0 => none
  | fuel + 1 => match r with
    | (.value :: ts, names) => flowPart fuel [.comma, close] (ts, names)
    | r => some (.empty, r)

/-- One item of a list in brackets; a key makes it a mapping of one entry. -/
def flowItem (fuel : Nat) (r : Rest) : Parsed :=
  match fuel with
  | 0 => none
  | fuel + 1 => match r with
    | (.key :: ts, names) => match flowPart fuel [.value, .comma, .flowSequenceEnd] (ts, names) with
      | none => none
      | some (k, r) => match flowValue fuel .flowSequenceEnd r with
        | none => none
        | some (v, r) => some (.map none [(k, v)], r)
    | r => parse fuel false false r

def flowItems (fuel : Nat) (tag : Option String) (done : List Node) (r : Rest) : Parsed :=
  match fuel with
  | 0 => none
  | fuel + 1 => match r with
    | (.flowSequenceEnd :: ts, names) => some (.list tag done, ts, names)
    | r => match flowItem fuel r with
      | none => none
      | some (node, .comma :: ts, names) => flowItems fuel tag (done ++ [node]) (ts, names)
      | some (node, .flowSequenceEnd :: ts, names) => some (.list tag (done ++ [node]), ts, names)
      | some _ => none

/-- One entry of a mapping in brackets; a node without a key's mark has no value. -/
def flowEntry (fuel : Nat) (r : Rest) : Option ((Node × Node) × Rest) :=
  match fuel with
  | 0 => none
  | fuel + 1 => match r with
    | (.key :: ts, names) => match flowPart fuel [.value, .comma, .flowMappingEnd] (ts, names) with
      | none => none
      | some (k, r) => match flowValue fuel .flowMappingEnd r with
        | none => none
        | some (v, r) => some ((k, v), r)
    | r => match parse fuel false false r with
      | none => none
      | some (k, r) => some ((k, .empty), r)

def flowEntries (fuel : Nat) (tag : Option String) (done : List (Node × Node)) (r : Rest) :
    Parsed :=
  match fuel with
  | 0 => none
  | fuel + 1 => match r with
    | (.flowMappingEnd :: ts, names) => some (.map tag done, ts, names)
    | r => match flowEntry fuel r with
      | none => none
      | some (e, .comma :: ts, names) => flowEntries fuel tag (done ++ [e]) (ts, names)
      | some (e, .flowMappingEnd :: ts, names) => some (.map tag (done ++ [e]), ts, names)
      | some _ => none

end

/-- Whether the version of the language is one that is known. -/
def isKnown (t : Token) : Bool :=
  match t with
  | .directive "YAML" version => (version.dropWhile (· = ' ')).toString.startsWith "1."
  | _ => true

/-- The root after the marks in front of a document; directives need such a mark. -/
def documentStart (ts : List Token) : Option (Bool × List Token) :=
  let isDirective (t : Token) : Bool := match t with
    | .directive .. => true
    | _ => false
  let ts := ts.dropWhile (· = .documentEnd)
  let directives := ts.takeWhile isDirective
  if !directives.all isKnown then none
  else match ts.dropWhile isDirective with
    | .documentStart :: rest => some (true, rest)
    | rest => if directives.isEmpty then some (false, rest) else none

/-- The root of the only document, or nothing if there is no document. -/
def document? (ts : List Token) : Option (Option Node) := do
  let (isMarked, ts) ← documentStart ts
  if ts.isEmpty && !isMarked then return none
  let (node, ts, _) ← if lacks [.documentStart, .documentEnd] ts then some (.empty, ts, [])
    else parse (8 * ts.length + 8) true false (ts, [])
  if (ts.dropWhile (· = .documentEnd)).isEmpty then return some node else none

end Node
end LanguageClient.Yaml
