import LanguageClient.Number.Binary64

/-!
Dynamic values: what a message, a settings file or a snapshot can hold. A mapping keeps its entries
in the order in which their keys were first written.
-/

namespace LanguageClient

/-- What a mapping can use as a key. -/
inductive Key where
  | null
  | bool (b : Bool)
  | int (n : Int)
  | float (x : Binary64)
  | text (s : String)
deriving DecidableEq, Repr, Inhabited

namespace Key

/-- Numbers that compare equal are one key, a truth value counting as zero or one. -/
def canonical : Key → Key
  | .bool b => .int (if b then 1 else 0)
  | .float x => match x.whole? with
    | some n => .int n
    | none => .float x
  | k => k

def same (a b : Key) : Bool := a.canonical = b.canonical

theorem same_refl (k : Key) : same k k = true := by simp [same]

theorem same_comm (a b : Key) : same a b = same b a := by simp [same, eq_comm]

theorem same_text (s t : String) : same (.text s) (.text t) = decide (s = t) := by
  simp [same, canonical]

end Key

inductive Value where
  | null
  | bool (b : Bool)
  | int (n : Int)
  | float (x : Binary64)
  | text (s : String)
  | list (items : List Value)
  | map (entries : List (Key × Value))
deriving Repr, Inhabited

/-- Entries of a mapping, each key once. -/
abbrev Entries := List (Key × Value)

namespace Entries

def lookup? (k : Key) (entries : Entries) : Option Value :=
  (List.find? (fun e => e.1.same k) entries).map (·.2)

def has (k : Key) (entries : Entries) : Bool :=
  entries.any fun e => e.1.same k

/-- A known key keeps its place and its spelling, a new one goes to the end. -/
def put (k : Key) (v : Value) : Entries → Entries
  | [] => [(k, v)]
  | e :: rest => if e.1.same k then (e.1, v) :: rest else e :: put k v rest

def field? (name : String) (entries : Entries) : Option Value :=
  entries.lookup? (.text name)

theorem lookup?_put (k k' : Key) (v : Value) (entries : Entries) :
    lookup? k' (put k v entries) = if k.same k' then some v else lookup? k' entries := by
  induction entries with
  | nil => by_cases h : k.same k' <;> simp [put, lookup?, h]
  | cons e rest ih =>
    by_cases h : e.1.same k
    · have same : e.1.same k' = k.same k' := by
        simp only [Key.same, decide_eq_true_eq] at h ⊢
        rw [h]
      by_cases h' : k.same k' <;> simp [put, lookup?, h, h', same]
    · by_cases h' : e.1.same k'
      · have apart : k.same k' = false := by
          cases hk : k.same k' with
          | false => rfl
          | true =>
            simp only [Key.same, decide_eq_true_eq] at h h' hk
            exact absurd (h'.trans hk.symm) h
        simp [put, lookup?, h, h', apart]
      · have step (l : Entries) : lookup? k' (e :: l) = lookup? k' l := by simp [lookup?, h']
        simp only [put, h, Bool.false_eq_true, ↓reduceIte, step, ih]

end Entries

namespace Value

/-- The name of the kind of value, as messages show it. -/
def kind : Value → String
  | .null => "NoneType"
  | .bool _ => "bool"
  | .int _ => "int"
  | .float _ => "float"
  | .text _ => "str"
  | .list _ => "list"
  | .map _ => "dict"

def ofKey : Key → Value
  | .null => .null
  | .bool b => .bool b
  | .int n => .int n
  | .float x => .float x
  | .text s => .text s

/-- The key a value can serve as; lists and mappings cannot. -/
def key? : Value → Option Key
  | .null => some .null
  | .bool b => some (.bool b)
  | .int n => some (.int n)
  | .float x => some (.float x)
  | .text s => some (.text s)
  | .list _ => none
  | .map _ => none

theorem key?_ofKey (k : Key) : (ofKey k).key? = some k := by cases k <;> rfl

/-- Nothing, zero, and whatever is empty count as false. -/
def truthy : Value → Bool
  | .null => false
  | .bool b => b
  | .int n => n ≠ 0
  | .float x => !x.isZero
  | .text s => !s.isEmpty
  | .list items => !items.isEmpty
  | .map entries => !entries.isEmpty

/-- The member called `name`, of a mapping that has it. -/
def field? (name : String) : Value → Option Value
  | .map entries => Entries.field? name entries
  | _ => none

/-- A mapping with names for keys. -/
def record (members : List (String × Value)) : Value :=
  .map (members.map fun m => (.text m.1, m.2))

mutual

def decEq : (a b : Value) → Decidable (a = b)
  | .null, .null => .isTrue rfl
  | .bool a, .bool b => if h : a = b then .isTrue (h ▸ rfl) else .isFalse (by simpa using h)
  | .int a, .int b => if h : a = b then .isTrue (h ▸ rfl) else .isFalse (by simpa using h)
  | .float a, .float b => if h : a = b then .isTrue (h ▸ rfl) else .isFalse (by simpa using h)
  | .text a, .text b => if h : a = b then .isTrue (h ▸ rfl) else .isFalse (by simpa using h)
  | .list a, .list b => match decEqItems a b with
    | .isTrue h => .isTrue (h ▸ rfl)
    | .isFalse h => .isFalse (by simpa using h)
  | .map a, .map b => match decEqEntries a b with
    | .isTrue h => .isTrue (h ▸ rfl)
    | .isFalse h => .isFalse (by simpa using h)
  | .null, .bool _ | .null, .int _ | .null, .float _ | .null, .text _ | .null, .list _
  | .null, .map _
  | .bool _, .null | .bool _, .int _ | .bool _, .float _ | .bool _, .text _ | .bool _, .list _
  | .bool _, .map _
  | .int _, .null | .int _, .bool _ | .int _, .float _ | .int _, .text _ | .int _, .list _
  | .int _, .map _
  | .float _, .null | .float _, .bool _ | .float _, .int _ | .float _, .text _ | .float _, .list _
  | .float _, .map _
  | .text _, .null | .text _, .bool _ | .text _, .int _ | .text _, .float _ | .text _, .list _
  | .text _, .map _
  | .list _, .null | .list _, .bool _ | .list _, .int _ | .list _, .float _ | .list _, .text _
  | .list _, .map _
  | .map _, .null | .map _, .bool _ | .map _, .int _ | .map _, .float _ | .map _, .text _
  | .map _, .list _ => .isFalse (by simp)
termination_by structural a => a

def decEqItems : (a b : List Value) → Decidable (a = b)
  | [], [] => .isTrue rfl
  | a :: as, b :: bs => match decEq a b, decEqItems as bs with
    | .isTrue h, .isTrue hs => .isTrue (h ▸ hs ▸ rfl)
    | .isFalse h, _ => .isFalse (by simp [h])
    | _, .isFalse h => .isFalse (by simp [h])
  | [], _ :: _ | _ :: _, [] => .isFalse (by simp)
termination_by structural a => a

def decEqEntries : (a b : List (Key × Value)) → Decidable (a = b)
  | [], [] => .isTrue rfl
  | a :: as, b :: bs => match decEqEntry a b, decEqEntries as bs with
    | .isTrue h, .isTrue hs => .isTrue (h ▸ hs ▸ rfl)
    | .isFalse h, _ => .isFalse (by simp [h])
    | _, .isFalse h => .isFalse (by simp [h])
  | [], _ :: _ | _ :: _, [] => .isFalse (by simp)
termination_by structural a => a

def decEqEntry : (a b : Key × Value) → Decidable (a = b)
  | (k, a), (l, b) => if h : k = l then
      match decEq a b with
      | .isTrue h' => .isTrue (h ▸ h' ▸ rfl)
      | .isFalse h' => .isFalse (by simp [h'])
    else .isFalse (by simp [h])
termination_by structural a => a

end

instance : DecidableEq Value := decEq

end Value
end LanguageClient
