import LanguageClient.Proofs.Settings.Writes

/-!
What the commands of a backend do to the settings. A command to add a value reads the list that is seen
from its place and writes it back, one longer, in its scope; so values added one after the other within
one scope stand there in their order. A command that fails leaves every answer as it was, and all that can
come of it is a new folder without values.
-/

namespace LanguageClient.Settings

/-- A member of a command; what is missing is nothing. -/
def member (name : String) (command : Entries) : Value := (Entries.field? name command).getD .null

variable {s s' : Settings} {place folder g : String} {k : Key} {v key uri fallback : Value}
  {everywhere : Bool} {command : Entries} {e : Failure}

theorem applyCommand_map : s.applyCommand (.map command) =
    if !(member "key" command).truthy then (s, .error .keyRequired)
    else if member "action" command = .text "add" then
      match s.get (member "key" command) (member "uri" command) .null with
      | .error e => (s, .error e)
      | .ok current =>
        s.update (member "key" command) (appended current (member "value" command))
          (member "uri" command) (member "global" command).truthy
    else if member "action" command = .text "set" then
      s.update (member "key" command) (member "value" command) (member "uri" command)
        (member "global" command).truthy
    else (s, .ok ()) := rfl

/-! ### Commands that fail -/

theorem openFolder_cases (place : String) (s : Settings) : s.openFolder place = s ∨
    (∀ f ∈ s.folders.map (·.1), ¬ f.toList <+: place.toList) ∧
      s.openFolder place = { s with folders := s.folders ++ [(place, [])] } := by
  rw [openFolder]
  split
  · rename_i empty
    have bare := around_eq_nil.1 (List.isEmpty_iff.1 empty)
    refine .inr ⟨bare, ?_⟩
    rw [setFolder_of_not_mem fun there => bare place there List.prefix_rfl]
  · exact .inl rfl

theorem own_openFolder : (s.openFolder place).own g k = s.own g k := by
  rcases openFolder_cases place s with same | ⟨bare, opened⟩
  · rw [same]
  · have fresh (here : place = g) : s.folders.find? (fun f => f.1 = g) = none :=
      List.find?_eq_none.2 fun f found same => bare f.1 (List.mem_map_of_mem found)
        (by rw [here, ← of_decide_eq_true same])
    by_cases here : place = g
    · subst here
      simp [own, opened, List.find?_append, fresh rfl, Entries.lookup?]
    · simp [own, opened, List.find?_append, here]

theorem valueAt_openFolder (once : s.Once) (k : Key) (at_ : Option String) :
    (s.openFolder place).valueAt k at_ = s.valueAt k at_ := by
  have outside : (s.openFolder place).valueAt k none = s.valueAt k none := by
    rcases openFolder_cases place s with same | ⟨-, opened⟩
    · rw [same]
    · rw [opened]
      rfl
  exact valueAt_congr_all once once.openFolder outside (fun _ => own_openFolder) at_

/-- All that a write which fails can do is to open a folder, for a key that is none. -/
theorem update_fails (failed : (s.update key v uri everywhere).2 = .error e) :
    (s.update key v uri everywhere).1 = s ∨ ∃ place, location uri = .ok place ∧
      key.toKey = .error e ∧ (s.update key v uri everywhere).1 = s.openFolder place := by
  rw [update] at failed ⊢
  split
  · cases named : key.toKey with
    | error => exact .inl rfl
    | ok k => simp_all
  · cases located : location uri with
    | error => exact .inl rfl
    | ok place =>
      cases named : key.toKey with
      | error => exact .inr ⟨place, rfl, by simp_all, rfl⟩
      | ok k => simp_all

theorem toKey_of_get (read : s.get key uri fallback = .ok v) : ∃ k, key.toKey = .ok k := by
  obtain ⟨place, -, read⟩ := exists_ok_of_bind read
  obtain ⟨k, named, -⟩ := exists_ok_of_bind read
  exact ⟨k, named⟩

/-- A command that fails changes nothing, unless it is to set what is no key at a place that is in no
folder: such a command makes a folder without values there. -/
theorem applyCommand_fails {data : Value} (failed : (s.applyCommand data).2 = .error e) :
    (s.applyCommand data).1 = s ∨ ∃ command place, data = .map command ∧
      member "action" command = .text "set" ∧ location (member "uri" command) = .ok place ∧
      (member "key" command).toKey = .error e ∧ (s.applyCommand data).1 = s.openFolder place := by
  cases data with
  | map command =>
    rw [applyCommand_map] at failed ⊢
    split
    · exact .inl rfl
    · rename_i keyed
      rw [if_neg keyed] at failed
      split
      · rename_i adds
        rw [if_pos adds] at failed
        cases read : s.get (member "key" command) (member "uri" command) .null with
        | error => exact .inl rfl
        | ok current =>
          rw [read] at failed
          -- What has been read under a key can be written under it.
          obtain ⟨k, named⟩ := toKey_of_get read
          refine .inl ((update_fails failed).resolve_right ?_)
          rintro ⟨-, -, unnamed, -⟩
          rw [named] at unnamed
          cases unnamed
      · rename_i sets
        rw [if_neg sets] at failed
        split
        · rename_i sets
          rw [if_pos sets] at failed
          exact (update_fails failed).imp_right fun ⟨place, located, unnamed, opened⟩ =>
            ⟨command, place, rfl, sets, located, unnamed, opened⟩
        · exact .inl rfl
  | _ => exact .inl rfl

/-- A command that fails changes no answer: at most it leaves a new folder, without values, at a place
that was in no folder. -/
theorem failed_command_keeps {data : Value} (reached : s.Reached)
    (failed : (s.applyCommand data).2 = .error e) :
    let s' := (s.applyCommand data).1
    s'.global = s.global ∧
      (s'.folders = s.folders ∨ ∃ place, (∀ f ∈ s.folders.map (·.1), ¬ f.toList <+: place.toList) ∧
        s'.folders = s.folders ++ [(place, [])]) ∧
      (∀ key uri fallback, s'.get key uri fallback = s.get key uri fallback) ∧
      (∀ root, s'.forRoot root = s.forRoot root) ∧ s'.bridgePort = s.bridgePort := by
  intro s'
  have made : s' = s ∨ ∃ place, s' = s.openFolder place := by
    rcases applyCommand_fails failed with same | ⟨-, place, -, -, -, -, opened⟩
    · exact .inl same
    · exact .inr ⟨place, opened⟩
  have layers : s'.global = s.global ∧ (s'.folders = s.folders ∨ ∃ place,
      (∀ f ∈ s.folders.map (·.1), ¬ f.toList <+: place.toList) ∧
        s'.folders = s.folders ++ [(place, [])]) := by
    rcases made with same | ⟨place, opened⟩
    · rw [same]
      exact ⟨rfl, .inl rfl⟩
    · rw [opened]
      rcases openFolder_cases place s with same | ⟨bare, new⟩
      · rw [same]
        exact ⟨rfl, .inl rfl⟩
      · rw [new]
        exact ⟨rfl, .inr ⟨place, bare, rfl⟩⟩
  have same (k : Key) (at_ : Option String) : s'.valueAt k at_ = s.valueAt k at_ := by
    rcases made with same | ⟨place, opened⟩
    · rw [same]
    · rw [opened, valueAt_openFolder reached.once]
  refine ⟨layers.1, layers.2, fun key uri fallback => ?_, fun root => ?_, ?_⟩
  · simp only [get, same]
  · simp only [forRoot, ownValue, same]
    rfl
  · simp only [bridgePort, ownValue, same]

/-- A list is no key; the folder that was to take it is there all the same. -/
example : let command := Value.record [("action", .text "set"), ("key", .list [.null]),
      ("uri", .text "file:///a")]
    (empty.applyCommand command).1.folders = [("file:///a/", [])] := by decide +kernel

/-! ### Values added to a list -/

/-- The values of a list; whatever else a value is, it has none. -/
def listed : Value → List Value
  | .list items => items
  | _ => []

theorem appended_eq (current item : Value) : appended current item = .list (listed current ++ [item]) := by
  cases current <;> rfl

/-- Writes into the innermost folder around a place, or into what holds for everything. -/
def write (scope : Option String) (k : Key) (v : Value) (s : Settings) : Settings :=
  match scope with
  | some place => s.writeFolder place k v
  | none => s.writeGlobal k v

theorem Once.write (once : s.Once) (scope : Option String) : (s.write scope k v).Once := by
  cases scope with
  | none => exact once
  | some place =>
    obtain ⟨_, _, wrote⟩ := exists_wrote once place k v
    exact wrote.once'

/-- What is written within a scope is seen there. -/
theorem valueAt_write (once : s.Once) (scope : Option String) :
    (s.write scope k v).valueAt k scope = some v := by
  cases scope with
  | none => exact (valueAt_writeGlobal k k v s).trans (if_pos k.same_refl)
  | some place =>
    obtain ⟨_, takes, wrote⟩ := exists_wrote once place k v
    exact wrote.inside takes.above takes.not_deeper

/-- The scope of a command for everything is not the place it comes from. -/
def scope (everywhere : Bool) (place : Option String) : Option String :=
  if everywhere then none else place

section

variable {name : String} {place : Option String} {commands : List Entries}

theorem get_of_place (located : placeOf uri = .ok place) : s.get (.text name) uri fallback =
    .ok ((s.valueAt (.text name) place).getD fallback) := by
  rw [get, located]
  rfl

theorem update_of_place (located : placeOf uri = .ok place) : s.update (.text name) v uri everywhere =
    (s.write (scope everywhere place) (.text name) v, .ok ()) := by
  rw [update]
  cases everywhere with
  | true => rfl
  | false =>
    by_cases outside : uri = .null
    · subst outside
      cases located
      rfl
    · have inside : ∃ p, location uri = .ok p ∧ place = some p := by
        cases found : location uri <;> cases uri <;> simp_all [placeOf, Except.map]
      obtain ⟨p, found, rfl⟩ := inside
      simp only [outside, found]
      rfl

/-- A command to add a value to the list under a name. -/
structure Adds (name : String) (uri : Value) (everywhere : Bool) (command : Entries) : Prop where
  action : member "action" command = .text "add"
  key : member "key" command = .text name
  uri : member "uri" command = uri
  everywhere : (member "global" command).truthy = everywhere

/-- The list that is seen from the place of the command is written back within its scope, one longer. -/
theorem Adds.applyCommand (adds : Adds name uri everywhere command) (named : name ≠ "")
    (located : placeOf uri = .ok place) : s.applyCommand (.map command) =
      (s.write (scope everywhere place) (.text name)
        (.list (listed ((s.valueAt (.text name) place).getD .null) ++ [member "value" command])),
        .ok ()) := by
  have truthy : (Value.text name).truthy = true := by simpa [Value.truthy] using named
  rw [applyCommand_map, adds.key, adds.action, adds.uri, adds.everywhere, truthy]
  simp only [Bool.not_true, Bool.false_eq_true, ↓reduceIte, get_of_place located, appended_eq,
    update_of_place located]

/-- Commands, one after the other. -/
def applyAll (commands : List Entries) (s : Settings) : Settings :=
  commands.foldl (fun s command => (s.applyCommand (.map command)).1) s

/-- What is seen from the place is what holds in the scope of the commands. -/
def Sees (s : Settings) (k : Key) (everywhere : Bool) (place : Option String) : Prop :=
  everywhere = true → ∀ p, place = some p → ¬ s.Covered k p

theorem Sees.valueAt (sees : s.Sees k everywhere place) (once : s.Once) :
    s.valueAt k place = s.valueAt k (scope everywhere place) := by
  cases everywhere with
  | false => rfl
  | true =>
    cases place with
    | none => rfl
    | some p => exact valueAt_of_not_covered once (sees rfl p rfl)

theorem Sees.write (sees : s.Sees k everywhere place) :
    (s.write (scope everywhere place) k v).Sees k everywhere place := by
  cases everywhere with
  | false => exact fun h => nomatch h
  | true => exact sees

theorem valueAt_applyAll (once : s.Once) (named : name ≠ "") (located : placeOf uri = .ok place)
    (sees : s.Sees (.text name) everywhere place)
    (adds : ∀ command ∈ commands, Adds name uri everywhere command) :
    listed (((s.applyAll commands).valueAt (.text name) (scope everywhere place)).getD .null) =
      listed ((s.valueAt (.text name) (scope everywhere place)).getD .null) ++
        commands.map (member "value") := by
  induction commands generalizing s with
  | nil => simp [applyAll]
  | cons command rest ih =>
    obtain ⟨first, others⟩ := List.forall_mem_cons.1 adds
    have applied := congrArg Prod.fst (first.applyCommand named located (s := s))
    rw [applyAll, List.foldl_cons, applied, ← applyAll,
      ih (once.write (scope everywhere place)) sees.write others, valueAt_write once, sees.valueAt once]
    simp [listed]

/-- Values added one after the other stand in their order after those of the list that was there, if
what is seen from their place is what holds in their scope. -/
theorem get_adds (reached : s.Reached) (named : name ≠ "") (located : placeOf uri = .ok place)
    (sees : s.Sees (.text name) everywhere place)
    (adds : ∀ command ∈ commands, Adds name uri everywhere command) :
    let scope := if everywhere then .null else uri
    ∃ before after, s.get (.text name) scope .null = .ok before ∧
      (s.applyAll commands).get (.text name) scope .null = .ok after ∧
      listed after = listed before ++ commands.map (member "value") := by
  intro scope_
  have located' : placeOf scope_ = .ok (scope everywhere place) := by
    cases everywhere with
    | false => exact located
    | true => rfl
  exact ⟨_, _, get_of_place located', get_of_place located',
    valueAt_applyAll reached.once named located sees adds⟩

/-- A value added for everything, from a place with a list of its own in a folder, takes that list along:
what has been seen in the folder alone is then seen everywhere. -/
theorem get_add_covered (reached : s.Reached) (named : name ≠ "") {p : String}
    (located : placeOf uri = .ok (some p)) (covered : s.Covered (.text name) p)
    (adds : Adds name uri true command) :
    ∃ folder own, Deepest (s.having (.text name)) p folder ∧ s.own folder (.text name) = some own ∧
      (s.applyCommand (.map command)).1.get (.text name) .null .null =
        .ok (.list (listed own ++ [member "value" command])) := by
  obtain ⟨folder, deepest, value⟩ := exists_deepest reached.once covered
  obtain ⟨own, found⟩ := Option.isSome_iff_exists.1 ((mem_having reached.once).1 deepest.mem)
  refine ⟨folder, own, deepest, found, ?_⟩
  rw [adds.applyCommand named located, value, found, get_outside]
  exact congrArg (fun found : Option Value => (.ok (found.getD .null) : Except Failure Value))
    (valueAt_write reached.once none)

/-- A list that only one folder has comes to hold for everything. -/
example : let s : Settings := ⟨[], [("file:///a/", [(.text "k", .list [.int 1])])]⟩
    let command := Value.record [("action", .text "add"), ("key", .text "k"), ("value", .int 2),
      ("uri", .text "file:///a/x"), ("global", .bool true)]
    (s.applyCommand command).1.global = [(.text "k", .list [.int 1, .int 2])] := by decide +kernel

end

end LanguageClient.Settings
