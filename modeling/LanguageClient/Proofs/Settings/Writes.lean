import LanguageClient.Proofs.Settings.Lookup

/-!
What a written value changes. It shows in every place of the folder that takes it, but for the places of
a longer folder which has a value of its own for the key; a value for everything shows where no folder
has one. Every other place, and every other key, is as it was.
-/

namespace LanguageClient.Settings

/-- Settings made of two values, after any number of writes, those that fail included. -/
inductive Reached : Settings → Prop
  | made {global folders : Value} {s : Settings} (made : ofValues global folders = .ok s) : Reached s
  | updated {s : Settings} (reached : Reached s) (key value uri : Value) (everywhere : Bool) :
    Reached (s.update key value uri everywhere).1

variable {s s' : Settings} {place folder g : String} {k k' : Key} {v : Value}
  {folders : List (String × Entries)} {values : Entries}

theorem names_setFolder (member : folder ∈ folders.map (·.1)) :
    (setFolder folder values folders).map (·.1) = folders.map (·.1) := by
  induction folders with
  | nil => cases member
  | cons f rest ih =>
    rw [setFolder]
    split
    · rename_i here
      simp [here]
    · rename_i other
      have later := (List.mem_cons.1 member).resolve_left (Ne.symm other)
      simp [ih later]

theorem nodup_setFolder (once : (folders.map (·.1)).Nodup) :
    ((setFolder folder values folders).map (·.1)).Nodup := by
  by_cases member : folder ∈ folders.map (·.1)
  · rwa [names_setFolder member]
  · rw [setFolder_of_not_mem member, List.map_append]
    exact List.nodup_append'.2 ⟨once, List.nodup_singleton _, by simpa using member⟩

theorem find?_setFolder : (setFolder folder values folders).find? (fun f => f.1 = g) =
    if folder = g then some (folder, values) else folders.find? fun f => f.1 = g := by
  induction folders with
  | nil => by_cases here : folder = g <;> simp [setFolder, here]
  | cons f rest ih =>
    by_cases first : f.1 = folder
    · by_cases here : folder = g <;> simp [setFolder, first, here]
    · by_cases here : f.1 = g
      · subst here
        simp [setFolder, first, Ne.symm first]
      · simp [setFolder, first, here, ih]

theorem exists_ok_of_bind {α β : Type} {x : Except Failure α} {f : α → Except Failure β} {b : β}
    (h : x >>= f = .ok b) : ∃ a, x = .ok a ∧ f a = .ok b := by
  cases x with
  | error e => cases h
  | ok a => exact ⟨a, rfl, h⟩

theorem nodup_foldersOf {done : List (String × Entries)} {entries : Entries}
    (once : (done.map (·.1)).Nodup) (made : foldersOf done entries = .ok folders) :
    (folders.map (·.1)).Nodup := by
  induction entries generalizing done with
  | nil => exact Except.ok.inj made ▸ once
  | cons e rest ih =>
    obtain ⟨folder, -, made⟩ := exists_ok_of_bind made
    obtain ⟨values, -, made⟩ := exists_ok_of_bind made
    exact ih (nodup_setFolder once) made

theorem once_of_made {global folders : Value} (made : ofValues global folders = .ok s) : s.Once := by
  obtain ⟨everywhere, -, made⟩ := exists_ok_of_bind made
  obtain ⟨entries, made⟩ : ∃ entries, (do
      let layers ← foldersOf [] entries
      return (⟨everywhere, layers⟩ : Settings)) = Except.ok s := by
    dsimp only at made
    split at made
    · exact ⟨_, made⟩
    · split at made
      · cases made
      · exact ⟨[], made⟩
  obtain ⟨layers, layered, made⟩ := exists_ok_of_bind made
  have empty : (([] : List (String × Entries)).map (·.1)).Nodup := List.nodup_nil
  cases made
  exact nodup_foldersOf empty layered

theorem Once.writeGlobal (once : s.Once) : (s.writeGlobal k v).Once := once

theorem Once.openFolder (once : s.Once) : (s.openFolder place).Once := by
  rw [Settings.openFolder]
  split
  · exact nodup_setFolder once
  · exact once

theorem Once.update (once : s.Once) (key value uri : Value) (everywhere : Bool) :
    (s.update key value uri everywhere).1.Once := by
  rw [Settings.update]
  split
  · split <;> exact once
  · split
    · exact once
    · split
      · exact once.openFolder
      · exact nodup_setFolder once

theorem Reached.once (h : s.Reached) : s.Once := by
  induction h with
  | made made => exact once_of_made made
  | updated _ key value uri everywhere ih => exact ih.update key value uri everywhere

/-- The folder that takes what is written for a place: the longest with which the place starts, or else
a new one. -/
def Takes (s : Settings) (place folder : String) : Prop :=
  Deepest (s.folders.map (·.1)) place folder ∨
    (∀ f ∈ s.folders.map (·.1), ¬ f.toList <+: place.toList) ∧ folder = place

theorem Takes.above (h : s.Takes place folder) : folder.toList <+: place.toList := by
  rcases h with deepest | ⟨-, rfl⟩
  · exact deepest.above
  · exact List.prefix_rfl

/-- Some folder around a place has a value of its own for a key, and is longer than `folder`. -/
def Deeper (s : Settings) (folder : String) (k : Key) (place : String) : Prop :=
  ∃ g ∈ s.having k, g.toList <+: place.toList ∧ folder.length < g.length

theorem Takes.not_deeper (h : s.Takes place folder) : ¬ s.Deeper folder k place := by
  rintro ⟨g, has, above, longer⟩
  have named : g ∈ s.folders.map (·.1) := (List.filter_sublist.map _).subset has
  rcases h with deepest | ⟨bare, -⟩
  · exact absurd (deepest.longest g named above) longer.not_ge
  · exact bare g named above

/-- A value has been written in one folder, each folder having one layer. -/
structure Wrote (folder : String) (k : Key) (v : Value) (s s' : Settings) : Prop where
  once : s.Once
  once' : s'.Once
  global : s'.global = s.global
  own : ∀ g k', s'.own g k' = if folder = g ∧ k.same k' then some v else s.own g k'

theorem exists_wrote (once : s.Once) (place : String) (k : Key) (v : Value) :
    ∃ folder, s.Takes place folder ∧ Wrote folder k v s (s.writeFolder place k v) := by
  obtain ⟨folder, takes, head⟩ : ∃ folder, s.Takes place folder ∧
      ((s.around place).head?.map (·.1)).getD place = folder := by
    cases first : (s.around place).head? with
    | none =>
      have bare := around_eq_nil.1 (List.head?_eq_none_iff.1 first)
      exact ⟨place, .inr ⟨bare, rfl⟩, rfl⟩
    | some f => exact ⟨f.1, .inl (deepest first).2, rfl⟩
  refine ⟨folder, takes, once, nodup_setFolder once, rfl, fun g k' => ?_⟩
  simp only [own, writeFolder, head, find?_setFolder]
  by_cases here : folder = g
  · subst here
    have put (values : Entries) : (Entries.put k v values).lookup? k' =
        if k.same k' then some v else values.lookup? k' := Entries.lookup?_put k k' v values
    cases s.folders.find? (fun f => f.1 = folder) with
    | none => simp [put, show Entries.lookup? k' [] = none from rfl]
    | some f => simp [put]
  · simp [here]

namespace Wrote

theorem outside (h : Wrote folder k v s s') : s'.valueAt k' none = s.valueAt k' none := by
  simp only [valueAt, h.global]

theorem mem_having (h : Wrote folder k v s s') : g ∈ s'.having k ↔ folder = g ∨ g ∈ s.having k := by
  rw [Settings.mem_having h.once, Settings.mem_having h.once', h.own]
  by_cases here : folder = g <;> simp [here, Key.same_refl]

theorem inside (h : Wrote folder k v s s') (above : folder.toList <+: place.toList)
    (longest : ¬ s.Deeper folder k place) : s'.valueAt k (some place) = some v := by
  have deepest : Deepest (s'.having k) place folder := by
    refine ⟨h.mem_having.2 (.inl rfl), above, fun g found above' => ?_⟩
    rcases h.mem_having.1 found with rfl | found
    · exact Nat.le_refl _
    · exact not_lt.1 fun longer => longest ⟨g, found, above', longer⟩
  rw [valueAt_of_deepest h.once' deepest, h.own, if_pos ⟨rfl, k.same_refl⟩]

theorem deeper (h : Wrote folder k v s s') (deeper : s.Deeper folder k place) :
    s'.valueAt k (some place) = s.valueAt k (some place) := by
  obtain ⟨g, has, above, longer⟩ := deeper
  obtain ⟨f, deepest, value⟩ := exists_deepest h.once ⟨g, has, above⟩
  have longer' : folder.length < f.length := longer.trans_le (deepest.longest g has above)
  have other : folder ≠ f := fun same => absurd longer' (same ▸ Nat.lt_irrefl _)
  have deepest' : Deepest (s'.having k) place f := by
    refine ⟨h.mem_having.2 (.inr deepest.mem), deepest.above, fun g' found above' => ?_⟩
    rcases h.mem_having.1 found with rfl | found
    · exact longer'.le
    · exact deepest.longest g' found above'
  rw [value, valueAt_of_deepest h.once' deepest', h.own, if_neg fun here => other here.1]

theorem beside (h : Wrote folder k v s s') (apart : ¬ folder.toList <+: place.toList) :
    s'.valueAt k (some place) = s.valueAt k (some place) := by
  refine valueAt_congr h.once h.once' h.outside fun g above => ?_
  have other : folder ≠ g := fun here => apart (here ▸ above)
  rw [h.own, if_neg fun here => other here.1]

theorem others (h : Wrote folder k v s s') (other : k.same k' = false) (place : Option String) :
    s'.valueAt k' place = s.valueAt k' place := by
  refine valueAt_congr_all h.once h.once' h.outside (fun g => ?_) place
  rw [h.own, if_neg fun here => absurd here.2 (by simp [other])]

end Wrote

section

variable (once : s.Once)
include once

theorem valueAt_writeGlobal_bare (bare : ¬ s.Covered k place) :
    (s.writeGlobal k v).valueAt k (some place) = some v := by
  have bare' : ¬ (s.writeGlobal k v).Covered k place := bare
  rw [valueAt_of_not_covered once.writeGlobal bare', valueAt_writeGlobal, if_pos k.same_refl]

theorem valueAt_writeGlobal_covered (covered : s.Covered k place) :
    (s.writeGlobal k v).valueAt k (some place) = s.valueAt k (some place) := by
  obtain ⟨folder, deepest, value⟩ := exists_deepest once covered
  have deepest' : Deepest ((s.writeGlobal k v).having k) place folder := deepest
  rw [value, valueAt_of_deepest once.writeGlobal deepest']
  rfl

theorem valueAt_writeGlobal_others (other : k.same k' = false) (place : Option String) :
    (s.writeGlobal k v).valueAt k' place = s.valueAt k' place := by
  have outside : (s.writeGlobal k v).valueAt k' none = s.valueAt k' none := by
    rw [valueAt_writeGlobal, if_neg (by simp [other])]
  have same (folder : String) : (s.writeGlobal k v).own folder k' = s.own folder k' := rfl
  exact valueAt_congr_all once once.writeGlobal outside same place

end

section

variable {key key' u uri : String} {fallback : Value}

theorem get_outside : s.get (.text key) .null fallback =
    .ok ((s.valueAt (.text key) none).getD fallback) := rfl

theorem get_inside (address : Uri.ofText u = .ok uri) : s.get (.text key) (.text u) fallback =
    .ok ((s.valueAt (.text key) (some (Uri.folder uri))).getD fallback) :=
  get_of_address rfl address

theorem get_congr (same : ∀ place, s'.valueAt (.text key) place = s.valueAt (.text key) place)
    (location : Value) : s'.get (.text key) location fallback = s.get (.text key) location fallback := by
  unfold get
  cases placeOf location with
  | error e => rfl
  | ok place =>
    exact congrArg (fun found => (.ok (found.getD fallback) : Except Failure Value)) (same place)

theorem same_text_of_ne (other : key' ≠ key) : (Key.text key).same (.text key') = false := by
  rw [Key.same_text, decide_eq_false_iff_not]
  exact other.symm

end

/-- A value written for a place shows there, and wherever else the folder that takes it is the longest
with a value for the key. A value written for everything shows where no folder has one. All else is
answered as before. -/
theorem get_update {s : Settings} (reached : s.Reached) (key : String) (v fallback : Value) :
    (∀ u uri, Uri.ofText u = .ok uri → ∃ folder s', s.Takes (Uri.folder uri) folder ∧
      s.update (.text key) v (.text u) false = (s', .ok ()) ∧
      s'.get (.text key) (.text u) fallback = .ok v ∧
      (∀ u' uri', Uri.ofText u' = .ok uri' →
        let inside := folder.toList <+: (Uri.folder uri').toList
        let deeper := s.Deeper folder (.text key) (Uri.folder uri')
        (inside ∧ ¬ deeper → s'.get (.text key) (.text u') fallback = .ok v) ∧
          (¬ inside ∨ deeper →
            s'.get (.text key) (.text u') fallback = s.get (.text key) (.text u') fallback)) ∧
      s'.get (.text key) .null fallback = s.get (.text key) .null fallback ∧
      ∀ key' location, key' ≠ key →
        s'.get (.text key') location fallback = s.get (.text key') location fallback) ∧
    ∀ (location : Value) (everywhere : Bool), everywhere = true ∨ location = .null → ∃ s',
      s.update (.text key) v location everywhere = (s', .ok ()) ∧
      s'.get (.text key) .null fallback = .ok v ∧
      (∀ u' uri', Uri.ofText u' = .ok uri' →
        let covered := s.Covered (.text key) (Uri.folder uri')
        let before := s.get (.text key) (.text u') fallback
        let after := s'.get (.text key) (.text u') fallback
        (¬ covered → after = .ok v) ∧ (covered → after = before) ∧
          (before ≠ .ok v → (after = .ok v ↔ ¬ covered))) ∧
      ∀ key' location, key' ≠ key →
        s'.get (.text key') location fallback = s.get (.text key') location fallback := by
  have once := reached.once
  refine ⟨fun u uri address => ?_, fun location everywhere global => ?_⟩
  · obtain ⟨folder, takes, wrote⟩ := exists_wrote once (Uri.folder uri) (.text key) v
    refine ⟨folder, _, takes, update_of_address rfl address, ?_, fun u' uri' address' => ?_, ?_,
      fun key' location other => get_congr (wrote.others (same_text_of_ne other)) location⟩
    · rw [get_inside address, wrote.inside takes.above takes.not_deeper, Option.getD_some]
    · dsimp only
      rw [get_inside address', get_inside address']
      refine ⟨fun ⟨above, longest⟩ => ?_, fun away => ?_⟩
      · rw [wrote.inside above longest, Option.getD_some]
      · rcases away with apart | deeper
        · rw [wrote.beside apart]
        · rw [wrote.deeper deeper]
    · rw [get_outside, get_outside, wrote.outside]
  · have written : s.update (.text key) v location everywhere = (s.writeGlobal (.text key) v, .ok ()) := by
      rw [update, if_pos (by simpa using global)]
      rfl
    refine ⟨_, written, ?_, fun u' uri' address' => ?_, fun key' location other =>
      get_congr (valueAt_writeGlobal_others once (same_text_of_ne other)) location⟩
    · rw [get_outside, valueAt_writeGlobal, if_pos (Key.same_refl _), Option.getD_some]
    · intro covered before after
      have shows_ (bare : ¬ covered) : after = .ok v := by
        simp only [after, get_inside address', valueAt_writeGlobal_bare once bare, Option.getD_some]
      have stays (h : covered) : after = before := by
        simp only [after, before, get_inside address', valueAt_writeGlobal_covered once h]
      refine ⟨shows_, stays, fun changed => ⟨fun now h => changed ?_, shows_⟩⟩
      rw [← stays h, now]

/-- Of two nested folders the outer one takes a value; the inner one has its own, and keeps it. -/
theorem get_update_nested :
    let key := Value.text "k"
    let s : Settings := ⟨[(.text "k", .int 0)],
      [("file:///a/", [(.text "k", .int 1)]), ("file:///a/b/", [(.text "k", .int 2)])]⟩
    s.Reached ∧
      (∃ s', s.update key (.int 5) (.text "file:///a/x") false = (s', .ok ()) ∧
        s'.get key (.text "file:///a/x") .null = .ok (.int 5) ∧
        s'.get key (.text "file:///a/c/y") .null = .ok (.int 5) ∧
        s'.get key (.text "file:///a/b/y") .null = .ok (.int 2) ∧
        s'.get key .null .null = .ok (.int 0)) ∧
      ∃ s', s.update key (.int 5) .null false = (s', .ok ()) ∧
        s'.get key (.text "file:///d") .null = .ok (.int 5) ∧
        s'.get key (.text "file:///a/b/y") .null = .ok (.int 2) := by
  intro key s
  have made : ofValues (.map [(.text "k", .int 0)])
      (.map [(.text "file:///a", .map [(.text "k", .int 1)]),
        (.text "file:///a/b", .map [(.text "k", .int 2)])]) = .ok s := by rfl
  have reached : s.Reached := .made made
  have outer : Deepest (s.folders.map (·.1)) "file:///a/x/" "file:///a/" :=
    ⟨by decide, by decide, by decide⟩
  have inner : Deepest (s.having (.text "k")) "file:///a/b/y/" "file:///a/b/" :=
    ⟨by decide, by decide, by decide⟩
  have before : s.get key (.text "file:///a/b/y") .null = .ok (.int 2) := by
    have address : Uri.ofText "file:///a/b/y" = .ok "file:///a/b/y" := Uri.ofText_address (by decide)
    have place : Uri.folder "file:///a/b/y" = "file:///a/b/y/" := by decide
    rw [get_inside address, place, valueAt_of_deepest reached.once inner]
    rfl
  obtain ⟨local_, everywhere⟩ := get_update reached "k" (.int 5) .null
  obtain ⟨folder, s', takes, ok, here, others, outside, -⟩ :=
    local_ "file:///a/x" "file:///a/x" (Uri.ofText_address (by decide))
  obtain rfl : folder = "file:///a/" := by
    rcases takes with deepest | ⟨bare, -⟩
    · exact deepest.unique outer
    · exact absurd outer.above (bare _ outer.mem)
  obtain ⟨s'', ok', -, shown, -⟩ := everywhere .null false (.inr rfl)
  have beside := (others "file:///a/c/y" "file:///a/c/y" (Uri.ofText_address (by decide))).1
  have within := (others "file:///a/b/y" "file:///a/b/y" (Uri.ofText_address (by decide))).2
  have away := (shown "file:///d" "file:///d" (Uri.ofText_address (by decide))).1
  have covered := (shown "file:///a/b/y" "file:///a/b/y" (Uri.ofText_address (by decide))).2.1
  refine ⟨reached, ⟨s', ok, here, beside ⟨by decide, ?_⟩, ?_, outside⟩, s'', ok', away ?_, ?_⟩
  · unfold Deeper; decide
  · exact (within (.inr ⟨"file:///a/b/", by decide, by decide, by decide⟩)).trans before
  · unfold Covered; decide
  · exact (covered ⟨"file:///a/b/", by decide, by decide⟩).trans before

end LanguageClient.Settings
