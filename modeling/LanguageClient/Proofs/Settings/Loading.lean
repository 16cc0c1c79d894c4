import LanguageClient.Startup

/-!
How the settings of a file come out. A file is loaded, or it fails in a way that is reported, or it is a
mapping whose sections are not such as settings have: then the failure is one of a few that are not
reported. The port of loaded settings fails for an infinity alone.
-/

namespace LanguageClient

/-- It fails in no way but some. -/
def FailsOnly {α : Type} (P : Failure → Prop) (x : Except Failure α) : Prop := ∀ e, x = .error e → P e

namespace FailsOnly

variable {α β : Type} {P : Failure → Prop} {x : Except Failure α}

theorem ok (a : α) : FailsOnly P (.ok a) := fun _ failed => nomatch failed

theorem error {e : Failure} (h : P e) : FailsOnly P (.error e : Except Failure α) := by
  rintro e' ⟨⟩
  exact h

theorem bind {f : α → Except Failure β} (h : FailsOnly P x) (later : ∀ a, FailsOnly P (f a)) :
    FailsOnly P (x >>= f) := by
  cases x with
  | error e => exact .error (h e rfl)
  | ok a => exact later a

theorem map (f : α → β) (h : FailsOnly P x) : FailsOnly P (x.map f) := by
  cases x with
  | error e => exact .error (h e rfl)
  | ok a => exact .ok _

end FailsOnly

/-- A failure to read settings that is reported. -/
abbrev Reported (e : Failure) : Prop := Startup.isReported e = true

namespace Yaml.Node

theorem tagged_fails (tag text : String) : FailsOnly Reported (tagged tag text) := by
  unfold tagged
  dsimp only
  repeat' split
  all_goals first
    | exact .ok _
    | exact .error rfl

theorem mergeAll_fails (entries : Entries) (vs : List Value) : FailsOnly Reported (mergeAll entries vs) := by
  fun_induction mergeAll entries vs with
  | case1 => exact .ok _
  | case2 es rest ih => exact ih.bind fun _ => .ok _
  | case3 => exact .error rfl

theorem mergeInto_fails (entries : Entries) (v : Value) : FailsOnly Reported (mergeInto entries v) := by
  unfold mergeInto
  split
  · exact .ok _
  · exact mergeAll_fails entries _
  · exact .error rfl

theorem scalarKey_fails {v : Except Failure Value} (n : Node) (h : FailsOnly Reported v) :
    FailsOnly Reported (scalarKey n v) := by
  unfold scalarKey
  split
  · exact .ok _
  · refine h.bind fun v => ?_
    unfold keyOf
    split
    · exact .ok _
    · exact .error rfl

mutual

theorem toValue_fails : (n : Node) → FailsOnly Reported n.toValue
  | .scalar none text true => by
    unfold toValue
    split
    · exact .ok _
    · exact .error rfl
  | .scalar none text false => .ok _
  | .scalar (some tag) text _ => tagged_fails tag text
  | .list tag items => by
    unfold toValue
    split
    · exact (itemValues_fails items).map _
    · exact .error rfl
  | .map tag entries => by
    unfold toValue
    split
    · exact (mergedEntries_fails [] entries).bind fun merged =>
        (ownEntries_fails merged entries).bind fun _ => .ok _
    · exact .error rfl
termination_by structural n => n

theorem itemValues_fails : (ns : List Node) → FailsOnly Reported (itemValues ns)
  | [] => .ok _
  | n :: rest => by
    unfold itemValues
    exact (toValue_fails n).bind fun _ => (itemValues_fails rest).bind fun _ => .ok _
termination_by structural ns => ns

theorem mergedEntries_fails (done : Entries) :
    (entries : List (Node × Node)) → FailsOnly Reported (mergedEntries done entries)
  | [] => .ok _
  | (k, v) :: rest => by
    unfold mergedEntries
    split
    · exact (toValue_fails v).bind fun v => (mergeInto_fails done v).bind fun done =>
        mergedEntries_fails done rest
    · exact mergedEntries_fails done rest
termination_by structural entries => entries

theorem ownEntries_fails (done : Entries) :
    (entries : List (Node × Node)) → FailsOnly Reported (ownEntries done entries)
  | [] => .ok _
  | (k, v) :: rest => by
    unfold ownEntries
    split
    · exact ownEntries_fails done rest
    · exact (scalarKey_fails k (toValue_fails k)).bind fun key => (toValue_fails v).bind fun value =>
        ownEntries_fails (Entries.put key value done) rest
termination_by structural entries => entries

end

end Yaml.Node

theorem Yaml.read_fails (text : String) : FailsOnly Reported (read text) := by
  unfold read
  split
  · exact .error rfl
  · exact .ok _
  · exact Node.toValue_fails _

namespace Settings

/-- A failure that comes of a value of the wrong kind, or of a user that is not known. It is not
reported. -/
inductive Misshapen : Failure → Prop
  | noLength (kind : String) : Misshapen (.noLength kind)
  | noItems (kind : String) : Misshapen (.noMember kind "items")
  | notIterable (kind : String) : Misshapen (.notIterable kind)
  | notSequence (index : Nat) : Misshapen (.notSequence index)
  | unhashable (kind : String) : Misshapen (.unhashable kind)
  | notContainer (kind : String) : Misshapen (.notContainer kind)
  | unknownUser : Misshapen .unknownUser

theorem Misshapen.not_reported {e : Failure} (h : Misshapen e) : ¬ Reported e := by
  cases h <;> simp [Reported, Startup.isReported, Failure.isBadValue]

/-- Either that, or it is reported. -/
def Broken (e : Failure) : Prop := Reported e ∨ Misshapen e

theorem ofPairs_fails (index : Nat) (entries : Entries) (vs : List Value) :
    FailsOnly Broken (Entries.ofPairs index entries vs) := by
  induction vs generalizing index entries with
  | nil => exact .ok _
  | cons v rest ih =>
    refine FailsOnly.bind ?_ fun entries => ih (index + 1) entries
    unfold Entries.putPair
    split
    · exact .error (.inr (.notSequence index))
    · refine FailsOnly.map _ ?_
      unfold Value.toKey
      split
      · exact .ok _
      · exact .error (.inr (.unhashable _))
    · exact .error (.inl rfl)

theorem ofTruthy_fails (v : Value) : FailsOnly Broken (Entries.ofTruthy v) := by
  unfold Entries.ofTruthy
  split
  · unfold Entries.ofValue
    split
    · exact .ok _
    · split
      · exact ofPairs_fails _ _ _
      · exact .error (.inr (.notIterable _))
  · exact .ok _

theorem location_fails (k : Key) : FailsOnly Broken (location (.ofKey k)) := by
  refine FailsOnly.map _ ?_
  cases k with
  | text s =>
    unfold address Value.ofKey Uri.ofText
    dsimp only
    split
    · exact .ok _
    · refine FailsOnly.map _ ?_
      unfold FilePath.expandHome
      split
      · split
        · exact .ok _
        · exact .error (.inr .unknownUser)
      · exact .ok _
  | _ => exact .error (.inr (.notContainer _))

theorem foldersOf_fails (done : List (String × Entries)) (entries : Entries) :
    FailsOnly Broken (foldersOf done entries) := by
  induction entries generalizing done with
  | nil => exact .ok _
  | cons e rest ih =>
    exact (location_fails e.1).bind fun folder => (ofTruthy_fails e.2).bind fun values => ih _

theorem ofFileValue_fails (path : FilePath) (v : Value) : FailsOnly Broken (ofFileValue path v) := by
  have sized_fails (v : Value) : FailsOnly Broken (sized v) := by
    unfold sized
    split
    all_goals first
      | exact .ok _
      | exact .error (.inr (.noLength _))
  unfold ofFileValue
  split
  · refine (sized_fails _).bind fun _ => (sized_fails _).bind fun _ =>
      (ofTruthy_fails _).bind fun everywhere => ?_
    have layers (entries : Entries) : FailsOnly Broken (do
        return (⟨everywhere, ← foldersOf [] entries⟩ : Settings)) :=
      (foldersOf_fails [] entries).bind fun _ => .ok _
    dsimp only
    split
    · exact layers _
    · split
      · exact .error (.inr (.noItems _))
      · exact layers []
  · split
    · exact .error (.inl rfl)
    · exact .ok _

/-! ### Files that are loaded -/

/-- Nothing, or a mapping. -/
def IsLayer (v : Value) : Prop := v.truthy = false ∨ ∃ entries, v = .map entries

def entriesOf : Value → Entries
  | .map entries => entries
  | _ => []

/-- A member of a file; what is missing is nothing. -/
def part (name : String) (members : Entries) : Value := (Entries.field? name members).getD .null

/-- The sections of a file are mappings, and its folders have addresses, each with a layer. -/
structure WellFormed (members : Entries) : Prop where
  settings : IsLayer (part "settings" members)
  folders : IsLayer (part "folders" members)
  layers : ∀ f ∈ entriesOf (part "folders" members),
    (∃ folder, location (.ofKey f.1) = .ok folder) ∧ IsLayer f.2

variable {members entries : Entries} {v : Value} {path : FilePath} {text : Option String} {s : Settings}
  {e : Failure}

theorem entriesOf_eq_nil (nothing : v.truthy = false) : entriesOf v = [] := by
  cases v with
  | map entries =>
    cases entries with
    | nil => rfl
    | cons => cases nothing
  | _ => rfl

theorem ofTruthy_map (entries : Entries) : Entries.ofTruthy (.map entries) = .ok entries := by
  cases entries <;> rfl

theorem IsLayer.ofTruthy (h : IsLayer v) : Entries.ofTruthy v = .ok (entriesOf v) := by
  rcases h with nothing | ⟨entries, rfl⟩
  · rw [Entries.ofTruthy, nothing, entriesOf_eq_nil nothing]
    rfl
  · exact ofTruthy_map entries

theorem section?_of_layer {name : String} (h : IsLayer (part name members)) : section? name members =
    .map (entriesOf (part name members)) := by
  have split_ : section? name members =
      if (part name members).truthy then part name members else .map [] := by
    rw [section?, part]
    cases Entries.field? name members <;> rfl
  rw [split_]
  rcases h with nothing | ⟨entries, same⟩
  · rw [nothing, entriesOf_eq_nil nothing]
    rfl
  · rw [same]
    cases entries <;> rfl

theorem foldersOf_of_layers (done : List (String × Entries))
    (layers : ∀ f ∈ entries, (∃ folder, location (.ofKey f.1) = .ok folder) ∧ IsLayer f.2) :
    ∃ folders, foldersOf done entries = .ok folders := by
  induction entries generalizing done with
  | nil => exact ⟨_, rfl⟩
  | cons f rest ih =>
    obtain ⟨⟨⟨folder, located⟩, layer⟩, others⟩ := List.forall_mem_cons.1 layers
    obtain ⟨folders, made⟩ := ih (setFolder folder (entriesOf f.2) done) others
    refine ⟨folders, ?_⟩
    rw [foldersOf, located, layer.ofTruthy]
    exact made

/-- A file with well-formed sections is loaded, with the settings of its first section for everything. -/
theorem WellFormed.loads (h : WellFormed members) : ∃ folders,
    ofFileValue path (.map members) = .ok ⟨entriesOf (part "settings" members), folders⟩ := by
  obtain ⟨folders, made⟩ := foldersOf_of_layers [] h.layers
  refine ⟨folders, ?_⟩
  simp only [ofFileValue, section?_of_layer h.settings, section?_of_layer h.folders, sized, ofValues,
    ofTruthy_map, made, bind, Except.bind]
  rfl

/-- A file is loaded, or its failure is reported, or it is a mapping whose sections are not well-formed;
then it fails in a way that is not reported. -/
theorem ofFile_cases (path : FilePath) (text : Option String) : (∃ s, ofFile path text = .ok s) ∨
    ∃ e, ofFile path text = .error e ∧ (Reported e ∨ Misshapen e ∧ ∃ t members,
      text = some t ∧ Yaml.read t = .ok (.map members) ∧ ¬ WellFormed members) := by
  cases text with
  | none => exact .inr ⟨_, rfl, .inl rfl⟩
  | some t =>
    cases read : Yaml.read t with
    | error e =>
      have failed : ofFile path (some t) = .error e := by rw [ofFile, read]; rfl
      exact .inr ⟨e, failed, .inl (Yaml.read_fails t e read)⟩
    | ok v =>
      have made : ofFile path (some t) = ofFileValue path v := by rw [ofFile, read]; rfl
      rw [made]
      cases out : ofFileValue path v with
      | ok s => exact .inl ⟨s, rfl⟩
      | error e =>
        refine .inr ⟨e, rfl, (ofFileValue_fails path v e out).imp_right fun odd => ⟨odd, t, ?_⟩⟩
        cases v with
        | map members =>
          refine ⟨members, rfl, read, fun wellFormed => ?_⟩
          obtain ⟨_, loads⟩ : ∃ folders, ofFileValue path (.map members) = .ok ⟨_, folders⟩ :=
            wellFormed.loads
          rw [out] at loads
          cases loads
        | _ =>
          unfold ofFileValue at out
          dsimp only at out
          split at out
          · cases out
            exact absurd rfl odd.not_reported
          · cases out

/-- A number in the place of the settings for everything is not reported. -/
example : ofFileValue path (.map [(.text "settings", .int 5)]) = .error (.noLength "int") := by rfl

/-- The port fails for an infinity alone; whatever else is no number turns listening off. -/
theorem bridgePort_fails : s.bridgePort = .error e ↔
    e = .infiniteNumber ∧ ∃ negative, s.ownValue serverPortKey none = .float (.infinite negative) := by
  rw [bridgePort]
  cases s.ownValue serverPortKey none with
  | float x => cases x <;> simp [Value.toInt, eq_comm]
  | text t => cases read : Number.readInt? t <;> simp [Value.toInt, read]
  | _ => simp [Value.toInt]

end Settings
end LanguageClient
