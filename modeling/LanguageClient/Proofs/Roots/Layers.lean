import LanguageClient.Proofs.Roots.Ownership
import LanguageClient.Settings.Basic
import Mathlib.Data.List.Nodup

/-!
Settings by folder and roots by folder agree: around any document, the folder whose settings count is
that of the root which contains the document, and no folder has a say exactly when no root contains
it.
-/

namespace LanguageClient

/-- The longest of some folders with which a place starts. -/
structure Deepest (folders : List String) (place folder : String) : Prop where
  mem : folder ∈ folders
  above : folder.toList <+: place.toList
  longest : ∀ f ∈ folders, f.toList <+: place.toList → f.length ≤ folder.length

namespace Deepest

variable {folders folders' : List String} {place f g : String}

theorem unique (h : Deepest folders place f) (h' : Deepest folders place g) : f = g := by
  have same : f.length = g.length :=
    Nat.le_antisymm (h'.longest f h.mem h.above) (h.longest g h'.mem h'.above)
  simp only [← String.length_toList] at same
  exact String.toList_inj.1
    ((List.prefix_of_prefix_length_le h.above h'.above same.le).eq_of_length same)

theorem perm (h : Deepest folders place f) (same : folders.Perm folders') :
    Deepest folders' place f where
  mem := same.subset h.mem
  above := h.above
  longest g found := h.longest g (same.symm.subset found)

end Deepest

namespace Resolver.Shows

variable {res : Resolver} {t : RootTree} {uri : String} {r : Root}

/-- The root found for an address is the one with the longest folder in front of it. -/
theorem deepest (h : res.Shows t) (found : res.innermost? uri = some r) :
    r ∈ res.roots ∧ Deepest (res.roots.map Root.folder) (Uri.folder uri) r.folder := by
  obtain ⟨front, split⟩ := List.getLast?_eq_some_iff.1 found
  obtain ⟨listed, holds_⟩ := List.mem_filter.1 (List.mem_of_getLast? found)
  have member := h.mem_sorted.1 listed
  refine ⟨member, List.mem_map_of_mem member, holds_iff_folder.1 holds_, fun f found' above => ?_⟩
  obtain ⟨r', member', rfl⟩ := List.mem_map.1 found'
  have candidate : r' ∈ res.sorted.filter (holds · uri) :=
    List.mem_filter.2 ⟨h.mem_sorted.2 member', holds_iff_folder.2 above⟩
  have sorted := h.pairwise_sorted.sublist (List.filter_sublist (p := (holds · uri)))
  rw [split] at candidate sorted
  rcases List.mem_append.1 candidate with before | last
  · exact (List.pairwise_append.1 sorted).2.2 r' before r List.mem_cons_self
  · exact List.mem_singleton.1 last ▸ Nat.le_refl _

theorem innermost?_eq_none (h : res.Shows t) : res.innermost? uri = none ↔
    ∀ f ∈ res.roots.map Root.folder, ¬ f.toList <+: (Uri.folder uri).toList := by
  simp only [innermost?, List.getLast?_eq_none_iff, List.filter_eq_nil_iff, h.mem_sorted,
    holds_iff_folder, List.forall_mem_map]

end Resolver.Shows

namespace Settings

variable {s : Settings} {place folder : String} {k : Key} {v : Value} {f : String × Entries}

theorem mem_around : f ∈ s.around place ↔ f ∈ s.folders ∧ f.1.toList <+: place.toList := by
  simp only [around, List.mem_mergeSort, List.mem_filter, List.isPrefixOf_iff_prefix]

theorem pairwise_around : (s.around place).Pairwise fun f g => g.1.length ≤ f.1.length := by
  have sorted : (s.around place).Pairwise fun f g => decide (g.1.length ≤ f.1.length) := by
    refine List.pairwise_mergeSort ?_ ?_ _
    · simp only [decide_eq_true_eq]
      exact fun _ _ _ le le' => le'.trans le
    · simp only [Bool.or_eq_true, decide_eq_true_eq]
      exact fun _ _ => Nat.le_total _ _
  exact sorted.imp of_decide_eq_true

/-- A layer counts first if no folder in front of the place is longer than its own. -/
theorem deepest (found : (s.around place).head? = some f) :
    f ∈ s.folders ∧ Deepest (s.folders.map (·.1)) place f.1 := by
  obtain ⟨rest, split⟩ := List.head?_eq_some_iff.1 found
  obtain ⟨member, above⟩ := mem_around.1 (List.mem_of_head? found)
  refine ⟨member, List.mem_map_of_mem member, above, fun g named above' => ?_⟩
  obtain ⟨g, member', rfl⟩ := List.mem_map.1 named
  have sorted : (s.around place).Pairwise fun f g => g.1.length ≤ f.1.length := pairwise_around
  have candidate : g ∈ s.around place := mem_around.2 ⟨member', above'⟩
  rw [split] at candidate sorted
  rcases List.mem_cons.1 candidate with rfl | after
  · exact Nat.le_refl _
  · exact (List.pairwise_cons.1 sorted).1 g after

theorem around_eq_nil : s.around place = [] ↔
    ∀ f ∈ s.folders.map (·.1), ¬ f.toList <+: place.toList := by
  have length : (s.around place).length =
      (s.folders.filter fun f => f.1.toList.isPrefixOf place.toList).length :=
    List.length_mergeSort _
  rw [← List.length_eq_zero_iff, length, List.length_eq_zero_iff, List.filter_eq_nil_iff]
  simp only [List.isPrefixOf_iff_prefix, List.forall_mem_map]

theorem setFolder_of_not_mem {folders : List (String × Entries)} {values : Entries}
    (h : folder ∉ folders.map (·.1)) :
    setFolder folder values folders = folders ++ [(folder, values)] := by
  induction folders with
  | nil => rfl
  | cons g rest ih =>
    rw [List.map_cons, List.mem_cons, not_or] at h
    rw [setFolder, if_neg (Ne.symm h.1), ih h.2, List.cons_append]

/-- The settings with a value written into one of the folders. -/
def writtenAt (folder : String) (k : Key) (v : Value) (s : Settings) : Settings :=
  { s with folders := s.folders.map fun f => if f.1 = folder then (f.1, f.2.put k v) else f }

/-- Where folders stand once each, the one found by its name is the one that is written. -/
theorem setFolder_put {folders : List (String × Entries)} (h : (folders.map (·.1)).Nodup)
    (member : folder ∈ folders.map (·.1)) :
    setFolder folder
        (Entries.put k v (((folders.find? fun f => f.1 = folder).map (·.2)).getD [])) folders =
      folders.map fun f => if f.1 = folder then (f.1, f.2.put k v) else f := by
  induction folders with
  | nil => cases member
  | cons g rest ih =>
    obtain ⟨fresh, h⟩ := List.nodup_cons.1 h
    by_cases same : g.1 = folder
    · subst same
      have others : rest.map (fun f => if f.1 = g.1 then (f.1, f.2.put k v) else f) = rest := by
        refine (List.map_congr_left fun f found => if_neg fun same => fresh ?_).trans (List.map_id rest)
        exact List.mem_map.2 ⟨f, found, same⟩
      simp [setFolder, others]
    · have there : folder ∈ rest.map (·.1) :=
        (List.mem_cons.1 member).resolve_left fun here => same here.symm
      simp [setFolder, same, ih h there]

theorem valueAt_of_head (found : (s.around place).head? = some f) (filled : f.2.lookup? k = some v) :
    s.valueAt k (some place) = some v := by
  obtain ⟨rest, split⟩ := List.head?_eq_some_iff.1 found
  simp [valueAt, split, firstIn, filled]

theorem valueAt_of_bare (bare : s.around place = []) :
    s.valueAt k (some place) = s.valueAt k none := by
  simp [valueAt, bare]

theorem writeFolder_of_head (once : (s.folders.map (·.1)).Nodup)
    (found : (s.around place).head? = some f) : s.writeFolder place k v = s.writtenAt f.1 k v := by
  have there : f.1 ∈ s.folders.map (·.1) := (deepest found).2.mem
  simp only [writeFolder, found, Option.map_some, Option.getD_some, setFolder_put once there]
  rfl

theorem writeFolder_of_bare (bare : s.around place = []) :
    s.writeFolder place k v = { s with folders := s.folders ++ [(place, [(k, v)])] } := by
  have fresh : place ∉ s.folders.map (·.1) := fun there =>
    around_eq_nil.1 bare place there List.prefix_rfl
  have none_ : s.folders.find? (fun f => f.1 = place) = none :=
    List.find?_eq_none.2 fun f found same =>
      fresh (of_decide_eq_true same ▸ List.mem_map_of_mem found)
  simp only [writeFolder, bare, List.head?_nil, Option.map_none, Option.getD_none, none_,
    Entries.put, setFolder_of_not_mem fresh]

section

variable {key fallback : Value} {document uri : String} {e : Failure}

theorem get_of_address (named : key.toKey = .ok k) (address : Uri.ofText document = .ok uri) :
    s.get key (.text document) fallback =
      .ok ((s.valueAt k (some (Uri.folder uri))).getD fallback) := by
  simp [get, placeOf, location, Settings.address, address, named, bind, Except.bind, Except.map,
    pure, Except.pure]

theorem update_of_address (named : key.toKey = .ok k) (address : Uri.ofText document = .ok uri) :
    s.update key v (.text document) false = (s.writeFolder (Uri.folder uri) k v, .ok ()) := by
  simp [update, location, Settings.address, address, named, Except.map]

theorem get_of_no_address (address : Uri.ofText document = .error e) :
    s.get key (.text document) fallback = .error e := by
  simp [get, placeOf, location, Settings.address, address, bind, Except.bind, Except.map]

theorem update_of_no_address (address : Uri.ofText document = .error e) :
    s.update key v (.text document) false = (s, .error e) := by
  simp [update, location, Settings.address, address, Except.map]

end

end Settings

/-- Folders of distinct places have distinct names. -/
theorem Place.nodup_folders {places : List Place} (apart : (places.map Place.segments).Nodup) :
    (places.map fun p => p.root.folder).Nodup := by
  have same_ {p q : Place} (same : p.root.folder = q.root.folder) : p.segments = q.segments := by
    have there := (folder_prefix_iff p q).1 (same ▸ List.prefix_rfl)
    have back := (folder_prefix_iff q p).1 (same ▸ List.prefix_rfl)
    exact there.eq_of_length_le back.length_le
  rw [List.nodup_iff_pairwise_ne, List.pairwise_map] at apart ⊢
  exact apart.imp fun other same => other (same_ same)

/-- Settings that are made of layers for distinct places have these layers and no other. -/
theorem Settings.ofValues_places {places : List Place} (apart : (places.map Place.segments).Nodup)
    (layer : Place → Entries) (everywhere : Entries) :
    Settings.ofValues (.map everywhere)
        (.map (places.map fun p => (.text p.path, .map (layer p)))) =
      .ok ⟨everywhere, places.map fun p => (p.root.folder, layer p)⟩ := by
  have truthy (entries : Entries) : Entries.ofTruthy (.map entries) = .ok entries := by
    cases entries <;> rfl
  have place (p : Place) : Settings.location (.ofKey (.text p.path)) = .ok p.root.folder := by
    rw [Root.folder, p.uri_root]
    simp only [Settings.location, Settings.address, Value.ofKey, p.absolute.ofText_eq]
    rfl
  have layers (places : List Place) (done : List (String × Entries))
      (once : (done.map (·.1) ++ places.map fun p => p.root.folder).Nodup) :
      Settings.foldersOf done (places.map fun p => (.text p.path, .map (layer p))) =
        .ok (done ++ places.map fun p => (p.root.folder, layer p)) := by
    induction places generalizing done with
    | nil => simp [Settings.foldersOf]
    | cons p rest ih =>
      have fresh : p.root.folder ∉ done.map (·.1) := fun there =>
        (List.nodup_append.1 once).2.2 _ there _ List.mem_cons_self rfl
      simp only [List.map_cons, Settings.foldersOf, place, truthy, bind, Except.bind,
        Settings.setFolder_of_not_mem fresh]
      rw [ih _ (by simpa using once), List.append_assoc]
      rfl
  simp only [Settings.ofValues, truthy, bind, Except.bind]
  rw [layers places [] (Place.nodup_folders apart)]
  rfl

section

variable {res : Resolver} {t : RootTree} {s : Settings} {uri : String} {r : Root}

/-- Where the same folders have roots and layers, the layer that counts first is the root's. -/
theorem head?_around_of_innermost? (shows_ : res.Shows t)
    (same : (s.folders.map (·.1)).Perm (res.roots.map Root.folder))
    (found : res.innermost? uri = some r) :
    ∃ f ∈ s.folders, (s.around (Uri.folder uri)).head? = some f ∧ f.1 = r.folder := by
  obtain ⟨-, deepest⟩ := shows_.deepest found
  cases first : (s.around (Uri.folder uri)).head? with
  | none =>
    have bare := Settings.around_eq_nil.1 (List.head?_eq_none_iff.1 first)
    exact absurd deepest.above (bare _ (same.symm.subset deepest.mem))
  | some f =>
    obtain ⟨member, deepest'⟩ := Settings.deepest first
    exact ⟨f, member, rfl, (deepest'.perm same).unique deepest⟩

theorem around_eq_nil_iff_innermost? (shows_ : res.Shows t)
    (same : (s.folders.map (·.1)).Perm (res.roots.map Root.folder)) :
    s.around (Uri.folder uri) = [] ↔ res.innermost? uri = none := by
  rw [Settings.around_eq_nil, shows_.innermost?_eq_none]
  simp only [same.mem_iff]

end

/-- Settings agree with roots on what contains a document, where the same places have layers and
roots, in whatever order. -/
theorem settings_follow_roots {places first : List Place} {moves : List Resolver.Move}
    {s : Settings} {layer : Place → Entries} {key : Value} {k : Key} {value : Place → Value}
    (apart : (places.map Place.segments).Nodup)
    (rooted : (Resolver.history first moves).roots.Perm (places.map Place.root))
    (layered : s.folders.Perm (places.map fun p => (p.root.folder, layer p)))
    (named : key.toKey = .ok k)
    (filled : ∀ p ∈ places, (layer p).lookup? k = some (value p))
    (different : (places.map value).Nodup)
    (document : String) (fallback v : Value) :
    let found := (Resolver.history first moves).containing? document
    let got := s.get key (.text document) fallback
    let outside := (Settings.firstIn k [s.global, Settings.defaults]).getD fallback
    let written := s.update key v (.text document) false
    (∀ e, found = .error e → got = .error e ∧ written = (s, .error e)) ∧
      (∀ r, found = .ok (some r) → ∃ p ∈ places, p.root = r) ∧
      (∀ p ∈ places, found = .ok (some p.root) →
        got = .ok (value p) ∧ written = (s.writtenAt p.root.folder k v, .ok ())) ∧
      (found = .ok none → got = .ok outside ∧ ∃ uri, Uri.ofText document = .ok uri ∧
        written = ({ s with folders := s.folders ++ [(Uri.folder uri, [(k, v)])] }, .ok ())) ∧
      ((∀ p ∈ places, value p ≠ outside) → (got = .ok outside ↔ found = .ok none) ∧
        ∀ p ∈ places, (got = .ok (value p) ↔ found = .ok (some p.root))) ∧
      (written.1.folders.length = s.folders.length + 1 ↔ found = .ok none) := by
  intro found got outside written
  have shows_ := Resolver.Shows.history first moves
  have names : (s.folders.map (·.1)).Perm (places.map fun p => p.root.folder) := by
    simpa [Function.comp_def] using layered.map (·.1)
  have once : (s.folders.map (·.1)).Nodup := names.nodup_iff.2 (Place.nodup_folders apart)
  have same : (s.folders.map (·.1)).Perm
      ((Resolver.history first moves).roots.map Root.folder) := by
    refine names.trans ?_
    simpa [Function.comp_def] using (rooted.map Root.folder).symm
  have one {p q : Place} (hp : p ∈ places) (hq : q ∈ places)
      (folder : p.root.folder = q.root.folder) : p = q :=
    List.inj_on_of_nodup_map (Place.nodup_folders apart) hp hq folder
  cases address : Uri.ofText document with
  | error e =>
    have found_ : found = .error e := by simp only [found, Resolver.containing?, address]; rfl
    have got_ : got = .error e := Settings.get_of_no_address address
    have written_ : written = (s, .error e) := Settings.update_of_no_address address
    simp [found_, got_, written_]
  | ok uri =>
    have found_ : found = .ok ((Resolver.history first moves).innermost? uri) := by
      simp only [found, Resolver.containing?, address]; rfl
    have got_ : got = .ok ((s.valueAt k (some (Uri.folder uri))).getD fallback) :=
      Settings.get_of_address named address
    have written_ : written = (s.writeFolder (Uri.folder uri) k v, .ok ()) :=
      Settings.update_of_address named address
    cases inner : (Resolver.history first moves).innermost? uri with
    | none =>
      have bare := (around_eq_nil_iff_innermost? shows_ same).2 inner
      rw [inner] at found_
      rw [Settings.valueAt_of_bare bare] at got_
      rw [Settings.writeFolder_of_bare bare] at written_
      have got_ : got = .ok outside := got_
      rw [found_, got_, written_]
      refine ⟨by simp, by simp, by simp, fun _ => ⟨rfl, uri, rfl, rfl⟩,
        fun other => ⟨by simp, fun p placed => ?_⟩, by simp⟩
      simpa using (other p placed).symm
    | some r =>
      obtain ⟨f, member, head, folder⟩ := head?_around_of_innermost? shows_ same inner
      obtain ⟨p, placed, rfl⟩ : ∃ p ∈ places, p.root = r :=
        List.mem_map.1 (rooted.subset (shows_.deepest inner).1)
      obtain ⟨q, placed', rfl⟩ := List.mem_map.1 (layered.subset member)
      obtain rfl : q = p := one placed' placed folder
      rw [inner] at found_
      rw [Settings.valueAt_of_head head (filled q placed), Option.getD_some] at got_
      rw [Settings.writeFolder_of_head once head] at written_
      have other {p : Place} (there : p ∈ places) : q.root = p.root ↔ q = p :=
        ⟨fun root => one placed there (congrArg Root.folder root), congrArg Place.root⟩
      have apart_ {p : Place} (there : p ∈ places) : value q = value p ↔ q = p :=
        ⟨List.inj_on_of_nodup_map different placed there, congrArg value⟩
      have length : (s.writtenAt q.root.folder k v).folders.length = s.folders.length :=
        List.length_map _
      rw [found_, got_, written_]
      refine ⟨by simp, fun r is => ⟨q, placed, Option.some.inj (Except.ok.inj is)⟩,
        fun p there is => ?_, by simp, fun differ => ⟨?_, fun p there => ?_⟩, ?_⟩
      · obtain rfl := (other there).1 (Option.some.inj (Except.ok.inj is))
        exact ⟨rfl, rfl⟩
      · simpa using differ q placed
      · simp only [Except.ok.injEq, Option.some.injEq, other there, apart_ there]
      · simp [length]

/-- In a folder inside another, its own layer counts, though both were named the other way round. -/
theorem settings_follow_nested :
    let proj : Place := ⟨"/./proj", "", ⟨"file:///proj", "proj"⟩, by decide, by rfl⟩
    let sub : Place := ⟨"/proj/sub/", "", ⟨"file:///proj/sub", "sub"⟩, by decide, by rfl⟩
    let layer (p : Place) : Entries := [(.text "k", .text p.path)]
    let s : Settings := ⟨[], [("file:///proj/sub/", layer sub), ("file:///proj/", layer proj)]⟩
    Settings.ofValues (.map []) (.map [(.text "/proj/sub/", .map (layer sub)),
        (.text "/./proj", .map (layer proj))]) = .ok s ∧
      (Resolver.history [proj, sub] []).containing? "/proj//sub" = .ok (some sub.root) ∧
      s.get (.text "k") (.text "/proj//sub") .null = .ok (.text "/proj/sub/") ∧
      (s.update (.text "k") (.int 5) (.text "/proj//sub") false).1.folders =
        [("file:///proj/sub/", [(.text "k", .int 5)]), ("file:///proj/", layer proj)] := by
  intro proj sub layer s
  have apart : ([sub, proj].map Place.segments).Nodup := by decide
  have roots : (Resolver.history [proj, sub] []).roots = [proj.root, sub.root] := by decide
  have rooted : (Resolver.history [proj, sub] []).roots.Perm ([sub, proj].map Place.root) :=
    roots ▸ .swap sub.root proj.root []
  have folders : sub.root.folder = "file:///proj/sub/" ∧ proj.root.folder = "file:///proj/" := by
    decide
  have layered : s.folders.Perm ([sub, proj].map fun p => (p.root.folder, layer p)) := by decide
  have named : (Value.text "k").toKey = .ok (.text "k") := rfl
  have filled : ∀ p ∈ [sub, proj], (layer p).lookup? (.text "k") = some (.text p.path) := by decide
  have different : ([sub, proj].map fun p => Value.text p.path).Nodup := by decide
  have found : (Resolver.history [proj, sub] []).containing? "/proj//sub" = .ok (some sub.root) := by
    have address : Uri.ofText "/proj//sub" = .ok "file:///proj/sub" := by rfl
    have sorted : (Resolver.history [proj, sub] []).sorted = [proj.root, sub.root] := by
      rw [(Resolver.Shows.history [proj, sub] []).sorted_eq, roots]
      exact List.mergeSort_of_pairwise (by decide)
    simp only [Resolver.containing?, address, Except.map, Resolver.innermost?, sorted]
    decide
  obtain ⟨-, -, some_, -⟩ := settings_follow_roots apart rooted layered named filled different
    "/proj//sub" .null (.int 5)
  obtain ⟨got, written⟩ := some_ sub (by simp) found
  refine ⟨?_, found, got, ?_⟩
  · have made := Settings.ofValues_places apart layer []
    simpa only [List.map_cons, List.map_nil, folders] using made
  · rw [written]
    decide

end LanguageClient
