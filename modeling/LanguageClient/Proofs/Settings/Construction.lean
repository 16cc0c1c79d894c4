import LanguageClient.Proofs.Settings.Writes

/-!
The layers that settings start with. Each folder has those of the last location that names it, whole:
what a location before it says of the folder is not looked up any more.
-/

namespace LanguageClient.Settings

variable {s : Settings} {folder place key : String} {k : Key} {v global values : Value}
  {done folders : List (String × Entries)} {entries front back layer : Entries}

theorem find?_foldersOf_of_others (made : foldersOf done entries = .ok folders)
    (others : ∀ e ∈ entries, location (.ofKey e.1) ≠ .ok folder) :
    folders.find? (fun f => f.1 = folder) = done.find? fun f => f.1 = folder := by
  induction entries generalizing done with
  | nil => rw [← Except.ok.inj made]
  | cons e rest ih =>
    obtain ⟨other, named, made⟩ := exists_ok_of_bind made
    obtain ⟨values, -, made⟩ := exists_ok_of_bind made
    obtain ⟨apart, others⟩ := List.forall_mem_cons.1 others
    rw [ih made others, find?_setFolder, if_neg fun same => apart (by rw [named, same])]

/-- The last location of a folder gives it its layer. -/
theorem find?_foldersOf (made : foldersOf done (front ++ (k, values) :: back) = .ok folders)
    (last : ∀ e ∈ back, location (.ofKey e.1) ≠ location (.ofKey k)) : ∃ folder layer,
      location (.ofKey k) = .ok folder ∧ Entries.ofTruthy values = .ok layer ∧
        folders.find? (fun f => f.1 = folder) = some (folder, layer) := by
  induction front generalizing done with
  | nil =>
    obtain ⟨folder, named, made⟩ := exists_ok_of_bind made
    obtain ⟨layer, filled, made⟩ := exists_ok_of_bind made
    refine ⟨folder, layer, named, filled, ?_⟩
    rw [find?_foldersOf_of_others made fun e he same => last e he (same.trans named.symm),
      find?_setFolder, if_pos rfl]
  | cons e front ih =>
    obtain ⟨other, -, made⟩ := exists_ok_of_bind made
    obtain ⟨values', -, made⟩ := exists_ok_of_bind made
    exact ih made

/-- At a location that is the last of its folder, every key that its entry has is found there. -/
theorem get_of_last (made : ofValues global (.map (front ++ (.text place, values) :: back)) = .ok s)
    (filled : Entries.ofTruthy values = .ok layer)
    (last : ∀ e ∈ back, location (.ofKey e.1) ≠ location (.text place))
    (has : Entries.lookup? (.text key) layer = some v) (fallback : Value) :
    s.get (.text key) (.text place) fallback = .ok v := by
  have once := once_of_made made
  obtain ⟨everywhere, -, made⟩ := exists_ok_of_bind made
  obtain ⟨entries, same, made⟩ := exists_ok_of_bind made
  cases same
  obtain ⟨folders, layered, made⟩ := exists_ok_of_bind made
  obtain ⟨folder, layer', here, filled', found⟩ := find?_foldersOf layered last
  cases filled.symm.trans filled'
  cases address : Uri.ofText place with
  | error e =>
    have failed : location (.text place) = .error e := by
      simp only [location, Settings.address, address, Except.map]
    cases failed.symm.trans here
  | ok uri =>
    have named : location (.text place) = .ok (Uri.folder uri) := by
      simp only [location, Settings.address, address, Except.map]
    cases named.symm.trans here
    cases made
    have own : own (Uri.folder uri) (.text key) ⟨everywhere, folders⟩ = some v := by
      rw [Settings.own, found]
      exact has
    have deepest : Deepest (having (.text key) ⟨everywhere, folders⟩) (Uri.folder uri) (Uri.folder uri) :=
      ⟨(mem_having once).2 (by rw [own]; rfl), List.prefix_rfl, fun _ _ above => above.length_le⟩
    rw [get_inside address, valueAt_of_deepest once deepest, own, Option.getD_some]

/-- A folder that is named again loses what it had, and its places show what there is outside. -/
example : ∃ s, ofValues (.map [(.text "k", .int 0)]) (.map [(.text "/a", .map [(.text "k", .int 1)]),
      (.text "file:///a/", .map [(.text "j", .int 2)])]) = .ok s ∧
    s.get (.text "k") (.text "/a") .null = .ok (.int 0) ∧
    s.get (.text "j") (.text "/a") .null = .ok (.int 2) := ⟨_, rfl, by decide +kernel, by decide +kernel⟩

end LanguageClient.Settings
