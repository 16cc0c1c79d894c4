import LanguageClient.Value.Entries
import LanguageClient.Yaml.Node
import LanguageClient.Yaml.Plain

/-!
The value of a settings file. A key written again takes the value written last; a merge key brings
in the entries of other mappings, before those of its own.
-/

namespace LanguageClient.Yaml

namespace Node

/-- Tags that values can have, by what they end in. -/
def knownTag? (tag : String) : Option String :=
  let core := match tag.toList with
    | '!' :: name => String.ofList name
    | '<' :: rest => (String.ofList rest.dropLast).dropPrefix "tag:yaml.org,2002:" |>.toString
    | _ => ""
  if ["null", "bool", "int", "float", "str", "seq", "map"].contains core then some core else none

/-- A scalar with a tag. -/
def tagged (tag text : String) : Except Failure Value :=
  if tag.isEmpty then match Plain.value? text with
    | some v => .ok v
    | none => .error .badYaml
  else match knownTag? tag with
    | some "null" => .ok .null
    | some "str" => .ok (.text text)
    | some "bool" =>
      let word := text.toLower
      if Plain.trues.contains word then .ok (.bool true)
      else if Plain.falses.contains word then .ok (.bool false)
      else .error .badYaml
    | some "int" =>
      if Plain.isInt text.toList then .ok (.int (Plain.intOf text.toList))
      else .error (.notInteger text)
    | some "float" =>
      if Plain.isFloat text.toList then .ok (.float (Plain.floatOf text.toList))
      else match Number.readFloat? text with
        | some x => .ok (.float x)
        | none => .error (.notFloat text)
    | _ => .error .badYaml

def isMerge : Node → Bool
  | .scalar none "<<" true => true
  | _ => false

/-- Whether a collection may have a tag. -/
def fits (kind : String) : Option String → Bool
  | none => true
  | some tag => tag.isEmpty || knownTag? tag = some kind

/-- Puts the entries of a list of mappings after others; an earlier mapping of the list wins. -/
def mergeAll (entries : Entries) : List Value → Except Failure Entries
  | [] => .ok entries
  | .map es :: rest => do
    let entries ← mergeAll entries rest
    return es.foldl (fun done e => Entries.put e.1 e.2 done) entries
  | _ :: _ => .error .badYaml

/-- The entries that a merge key brings in. -/
def mergeInto (entries : Entries) (v : Value) : Except Failure Entries :=
  match v with
  | .map es => .ok (es.foldl (fun done e => Entries.put e.1 e.2 done) entries)
  | .list vs => mergeAll entries vs
  | _ => .error .badYaml

/-- A value as a key; lists and mappings cannot be keys. -/
def keyOf (v : Value) : Except Failure Key :=
  match v.key? with
  | some k => .ok k
  | none => .error .badYaml

/-- The value of a scalar used as a key. -/
def scalarKey (n : Node) (v : Except Failure Value) : Except Failure Key :=
  match n with
  | .scalar none "=" true => .ok (.text "=")
  | _ => v.bind keyOf

mutual

def toValue : Node → Except Failure Value
  | .scalar none text true => match Plain.value? text with
    | some v => .ok v
    | none => .error .badYaml
  | .scalar none text false => .ok (.text text)
  | .scalar (some tag) text _ => tagged tag text
  | .list tag items => if fits "seq" tag then (itemValues items).map .list else .error .badYaml
  | .map tag entries =>
    if fits "map" tag then do
      let merged ← mergedEntries [] entries
      return .map (← ownEntries merged entries)
    else .error .badYaml

def itemValues : List Node → Except Failure (List Value)
  | [] => .ok []
  | n :: rest => do
    let v ← toValue n
    return v :: (← itemValues rest)

/-- What the merge keys of a mapping bring in. -/
def mergedEntries (done : Entries) : List (Node × Node) → Except Failure Entries
  | [] => .ok done
  | (k, v) :: rest =>
    if isMerge k then do mergedEntries (← mergeInto done (← toValue v)) rest
    else mergedEntries done rest

/-- The other entries of a mapping, after those brought in. -/
def ownEntries (done : Entries) : List (Node × Node) → Except Failure Entries
  | [] => .ok done
  | (k, v) :: rest =>
    if isMerge k then ownEntries done rest
    else do
      let key ← scalarKey k (toValue k)
      let value ← toValue v
      ownEntries (Entries.put key value done) rest

end

end Node

/-- Line ends of any system as one character. -/
def unifyLines : List Char → List Char
  | '\r' :: '\n' :: rest => '\n' :: unifyLines rest
  | '\r' :: rest => '\n' :: unifyLines rest
  | c :: rest => c :: unifyLines rest
  | [] => []

/-- The value of a text; nothing has the value of nothing. -/
def read (s : String) : Except Failure Value :=
  match (tokens? (unifyLines s.toList)).bind Node.document? with
  | none => .error .badYaml
  | some none => .ok .null
  | some (some node) => node.toValue

theorem fits_none (kind : String) : Node.fits kind none = true := rfl

end LanguageClient.Yaml
