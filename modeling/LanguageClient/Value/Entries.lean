import LanguageClient.Failure

/-!
Entries copied out of a value: those of a mapping, or pairs listed one by one.
-/

namespace LanguageClient

namespace Value

/-- What a value lists when it is gone through; a mapping lists its keys. -/
def elements? : Value → Option (List Value)
  | .list items => some items
  | .text s => some (s.toList.map fun c => .text (String.singleton c))
  | .map entries => some (entries.map fun e => ofKey e.1)
  | _ => none

/-- The key a value stands for, if it can be one. -/
def toKey (v : Value) : Except Failure Key :=
  match v.key? with
  | some k => .ok k
  | none => .error (.unhashable v.kind)

end Value

namespace Entries

/-- One pair of a list of pairs, put after the entries before it. -/
def putPair (index : Nat) (v : Value) (entries : Entries) : Except Failure Entries :=
  match v.elements? with
  | none => .error (.notSequence index)
  | some [k, x] => (Value.toKey k).map fun k => put k x entries
  | some items => .error (.notPair index items.length)

def ofPairs (index : Nat) (entries : Entries) : List Value → Except Failure Entries
  | [] => .ok entries
  | v :: rest => do ofPairs (index + 1) (← putPair index v entries) rest

/-- The entries of a mapping, or those that a list of pairs makes. -/
def ofValue (v : Value) : Except Failure Entries :=
  match v with
  | .map entries => .ok entries
  | _ => match v.elements? with
    | some items => ofPairs 0 [] items
    | none => .error (.notIterable v.kind)

/-- As `ofValue`, but whatever counts as false has no entries. -/
def ofTruthy (v : Value) : Except Failure Entries :=
  if v.truthy then ofValue v else .ok []

theorem ofValue_map (entries : Entries) : ofValue (.map entries) = .ok entries := rfl

end Entries
end LanguageClient
