import LanguageClient.Proofs.Settings.Commands

/-!
How far a value goes that the backend of a document sets. It is written into the innermost folder around
the document that has settings, or into a new one for the document alone; the root that owns the document
sees it exactly when that folder holds the root as well. Otherwise the value stays below the root, and a
session of the root starts with what it would have started with.
-/

namespace LanguageClient

namespace Resolver

variable {res : Resolver} {root r : Root} {document : String}

theorem folder_outermost (res : Resolver) (r : Root) :
    (res.outermost r).folder.toList <+: r.folder.toList := by
  rw [outermost]
  cases found : res.sorted.find? (fun s => s.folder.toList.isPrefixOf r.folder.toList) with
  | none => exact List.prefix_rfl
  | some s =>
    have inside := List.find?_some found
    exact List.isPrefixOf_iff_prefix.1 inside

/-- A document lies in the folder of the root that owns it. -/
theorem folder_of_resolve? (owned : res.resolve? document = .ok (some root)) :
    ∃ uri, Uri.ofText document = .ok uri ∧ root.folder.toList <+: (Uri.folder uri).toList := by
  cases address : Uri.ofText document with
  | error e => simp [resolve?, containing?, address, Except.map] at owned
  | ok uri =>
    obtain ⟨r, inner, rfl⟩ : ∃ r, res.innermost? uri = some r ∧ res.outermost r = root := by
      simpa [resolve?, containing?, address, Except.map] using owned
    have holds_ := (List.mem_filter.1 (List.mem_of_getLast? inner)).2
    exact ⟨uri, rfl, (res.folder_outermost r).trans (holds_iff_folder.1 holds_)⟩

end Resolver

namespace Settings

variable {s : Settings} {place above folder name document : String} {k : Key} {v uri : Value}
  {everywhere : Bool} {command : Entries}

/-- What is written for a place is written at or above another place around it. -/
def Reaches (s : Settings) (place above : String) : Prop :=
  place = above ∨ ∃ folder, Deepest (s.folders.map (·.1)) place folder ∧ folder.toList <+: above.toList

theorem Takes.reaches (takes : s.Takes place folder) (around : above.toList <+: place.toList) :
    s.Reaches place above ↔ folder.toList <+: above.toList := by
  constructor
  · rintro (rfl | ⟨folder', deepest, inside⟩)
    · exact takes.above
    · rcases takes with deepest' | ⟨bare, -⟩
      · exact deepest'.unique deepest ▸ inside
      · exact absurd deepest.above (bare _ deepest.mem)
  · intro inside
    rcases takes with deepest | ⟨-, rfl⟩
    · exact .inr ⟨folder, deepest, inside⟩
    · exact .inl (String.toList_inj.1 (inside.eq_of_length_le around.length_le))

/-- A folder that holds a place above cannot be hidden there: what is longer would be the one to take the
value. -/
theorem Takes.not_deeper_above (takes : s.Takes place folder) (around : above.toList <+: place.toList) :
    ¬ s.Deeper folder k above := fun ⟨g, has, inside, longer⟩ =>
  takes.not_deeper ⟨g, has, inside.trans around, longer⟩

/-- A value written for a place is seen from a place above it exactly where it reaches it. -/
theorem valueAt_above (once : s.Once) (around : above.toList <+: place.toList) (k : Key) (v : Value) :
    (s.Reaches place above → (s.writeFolder place k v).valueAt k (some above) = some v) ∧
      (¬ s.Reaches place above → ∀ k',
        (s.writeFolder place k v).valueAt k' (some above) = s.valueAt k' (some above)) := by
  obtain ⟨folder, takes, wrote⟩ := exists_wrote once place k v
  rw [takes.reaches around]
  refine ⟨fun inside => wrote.inside inside (takes.not_deeper_above around), fun apart k' => ?_⟩
  have own (g : String) (inside : g.toList <+: above.toList) :
      (s.writeFolder place k v).own g k' = s.own g k' := by
    have other : folder ≠ g := fun here => apart (here ▸ inside)
    rw [wrote.own, if_neg fun here => other here.1]
  have outside : (s.writeFolder place k v).valueAt k' none = s.valueAt k' none := wrote.outside
  exact valueAt_congr once wrote.once' outside own

/-- A command to set a value under a name. -/
structure Sets (name : String) (uri : Value) (everywhere : Bool) (command : Entries) : Prop where
  action : member "action" command = .text "set"
  key : member "key" command = .text name
  uri : member "uri" command = uri
  everywhere : (member "global" command).truthy = everywhere

theorem Sets.applyCommand (sets : Sets name uri everywhere command) (named : name ≠ "") :
    s.applyCommand (.map command) =
      s.update (.text name) (member "value" command) uri everywhere := by
  have truthy : (Value.text name).truthy = true := by simpa [Value.truthy] using named
  rw [applyCommand_map, sets.key, sets.action, sets.uri, sets.everywhere, truthy]
  rfl

theorem forRoot_congr {s' : Settings} {root : Root} {uri : String}
    (address : Uri.ofText root.uri = .ok uri)
    (same : ∀ k, s'.valueAt k (some (Uri.folder uri)) = s.valueAt k (some (Uri.folder uri))) :
    s'.forRoot (some root) = s.forRoot (some root) := by
  simp only [forRoot, address, Except.map, bind, Except.bind, ownValue, same]
  rfl

/-- The value that is set for a document is seen there. The root that owns the document sees it exactly
when the innermost folder with settings around the document holds the root; otherwise nothing that the
root is told, or started with, has changed. -/
theorem owner_sees {res : Resolver} {root : Root} (reached : s.Reached) (named : name ≠ "")
    (owned : res.resolve? document = .ok (some root)) (address : Uri.ofText root.uri = .ok root.uri)
    (sets : Sets name (.text document) false command) (fallback : Value) :
    ∃ uri s', Uri.ofText document = .ok uri ∧ s.applyCommand (.map command) = (s', .ok ()) ∧
      s'.get (.text name) (.text document) fallback = .ok (member "value" command) ∧
      (s.Reaches (Uri.folder uri) root.folder →
        s'.get (.text name) (.text root.uri) fallback = .ok (member "value" command)) ∧
      (¬ s.Reaches (Uri.folder uri) root.folder → s'.forRoot (some root) = s.forRoot (some root) ∧
        ∀ key, s'.get (.text key) (.text root.uri) fallback =
          s.get (.text key) (.text root.uri) fallback) := by
  obtain ⟨uri, located, around⟩ := Resolver.folder_of_resolve? owned
  have above := valueAt_above reached.once around (.text name) (member "value" command)
  have applied : s.applyCommand (.map command) =
      (s.writeFolder (Uri.folder uri) (.text name) (member "value" command), .ok ()) :=
    (sets.applyCommand named).trans (update_of_address rfl located)
  have here : (s.writeFolder (Uri.folder uri) (.text name) (member "value" command)).valueAt (.text name)
      (some (Uri.folder uri)) = some (member "value" command) :=
    valueAt_write reached.once (some (Uri.folder uri))
  refine ⟨uri, _, located, applied, ?_, fun reaches => ?_, fun short => ⟨?_, fun key => ?_⟩⟩
  · rw [get_inside located, here, Option.getD_some]
  · rw [get_inside address, ← Root.folder, above.1 reaches, Option.getD_some]
  · exact forRoot_congr address (above.2 short)
  · rw [get_inside address, get_inside address, ← Root.folder, above.2 short]

/-- With no folder around the document, a new one for it alone takes the value: its root is started
without. -/
theorem owner_starts_without :
    let root : Root := ⟨"file:///a", "a"⟩
    let command := [(.text "action", .text "set"), (.text "key", .text parametersKey),
      (.text "value", .text "--x"), (.text "uri", .text "file:///a/x.lua")]
    ∃ s', empty.applyCommand (.map command) = (s', .ok ()) ∧
      s'.get (.text parametersKey) (.text "file:///a/x.lua") .null = .ok (.text "--x") ∧
      s'.forRoot (some root) = empty.forRoot (some root) := by
  intro root command
  have made : ofValues .null .null = .ok empty := rfl
  have reached : empty.Reached := .made made
  have document : Uri.ofText "file:///a/x.lua" = .ok "file:///a/x.lua" := Uri.ofText_address (by decide)
  have folder : Uri.folder "file:///a/x.lua" = "file:///a/x.lua/" := by decide
  have owned : (Resolver.ofRoots [root]).resolve? "file:///a/x.lua" = .ok (some root) := by
    have sorted : (Resolver.ofRoots [root]).sorted = [root] := List.mergeSort_of_pairwise (by decide)
    simp only [Resolver.resolve?, Resolver.containing?, document, Except.map, Resolver.innermost?, sorted,
      Resolver.outermost]
    decide
  have sets : Sets parametersKey (.text "file:///a/x.lua") false command :=
    ⟨by rfl, by rfl, by rfl, by rfl⟩
  obtain ⟨uri, s', located, applied, seen, -, short⟩ :=
    owner_sees reached (by decide) owned (Uri.ofText_address (by decide)) sets .null
  obtain rfl := Except.ok.inj (located.symm.trans document)
  refine ⟨s', applied, seen, (short ?_).1⟩
  rw [folder]
  rintro (same | ⟨_, deepest, -⟩)
  · exact absurd same (by decide)
  · exact absurd deepest.mem List.not_mem_nil

end Settings
end LanguageClient
