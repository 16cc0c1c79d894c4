import LanguageClient.Proofs.Roots.Paths
import LanguageClient.Proofs.Roots.Registry
import Mathlib.Logic.Function.Basic

/-!
Which root owns a path, whatever has been done to the roots before. The roots stand in a tree of
folders; a path is contained by the deepest folder above it that has a root, and owned by the one
nearest to the top.
-/

namespace LanguageClient

open FilePath (IsAbsolutePath)

/-- A root that is made of an absolute path. -/
structure Place where
  path : String
  name : String
  root : Root
  absolute : IsAbsolutePath path
  made : Root.ofPath path name = .ok root

namespace Place

/-- The segments of the path in normal form. -/
def segments (p : Place) : List (List Char) := (FilePath.ofText p.path).segments

/-- Every absolute path makes a root. -/
theorem exists_place {path : String} (h : IsAbsolutePath path) (name : String) :
    ∃ p : Place, p.path = path ∧ p.name = name :=
  ⟨⟨path, name, _, h, Root.ofPath_eq h.isRooted name⟩, rfl, rfl⟩

theorem uri_root (p : Place) : p.root.uri = Uri.ofPath (FilePath.ofText p.path) := by
  have made := p.made
  rw [Root.ofPath_eq p.absolute.isRooted] at made
  rw [← Except.ok.inj made]

theorem key_eq_iff (p q : Place) : p.root.key = q.root.key ↔ p.segments = q.segments := by
  have key (p : Place) : p.root.key = Root.key ⟨Uri.ofPath (FilePath.ofText p.path), ""⟩ := by
    simp only [Root.key, uri_root]
  rw [key p, key q, Root.key_ofPath_inj p.absolute.isPlain q.absolute.isPlain]
  rfl

theorem folder_prefix_iff (p q : Place) :
    p.root.folder.toList <+: q.root.folder.toList ↔ p.segments <+: q.segments := by
  rw [Root.folder, Root.folder, uri_root, uri_root]
  exact Uri.folder_prefix_iff p.absolute.isPlain q.absolute.isPlain

end Place

namespace Resolver

/-- What is done to a resolver, or asked of it. -/
inductive Move where
  | add (p : Place)
  | remove (p : Place)
  | replace (ps : List Place)
  /-- A question, for which the roots are sorted. -/
  | ask

def Move.apply (res : Resolver) : Move → Resolver
  | .add p => res.add p.root
  | .remove p => res.remove p.root
  | .replace ps => res.replace (ps.map Place.root)
  | .ask => res.remember

/-- A resolver that is made with some roots, after some moves. -/
def history (first : List Place) (moves : List Move) : Resolver :=
  moves.foldl Move.apply (.ofRoots (first.map Place.root))

end Resolver

/-- Which root stands at a folder, by the segments of its path. -/
abbrev RootTree := List (List Char) → Option Root

namespace RootTree

def put (t : RootTree) (p : Place) : RootTree := Function.update t p.segments (some p.root)

def ofPlaces (ps : List Place) : RootTree := ps.foldl put fun _ => none

/-- What a move leaves of a tree. -/
def after (t : RootTree) : Resolver.Move → RootTree
  | .add p => t.put p
  | .remove p => Function.update t p.segments none
  | .replace ps => ofPlaces ps
  | .ask => t

/-- The tree that some roots and moves should come to. -/
def history (first : List Place) (moves : List Resolver.Move) : RootTree :=
  moves.foldl after (ofPlaces first)

/-- `r` stands at the deepest folder above a path that has a root. -/
def Innermost (t : RootTree) (path : List (List Char)) (r : Root) : Prop :=
  ∃ s, s <+: path ∧ t s = some r ∧ ∀ s', s' <+: path → (t s').isSome → s'.length ≤ s.length

/-- `r` stands at the folder above a path that has a root and is nearest to the top. -/
def Outermost (t : RootTree) (path : List (List Char)) (r : Root) : Prop :=
  ∃ s, s <+: path ∧ t s = some r ∧ ∀ s', s' <+: path → (t s').isSome → s.length ≤ s'.length

/-- No folder above a path has a root. -/
def Bare (t : RootTree) (path : List (List Char)) : Prop := ∀ s, s <+: path → t s = none

end RootTree

namespace Resolver

/-- A root holds an address exactly when the address, as a folder, starts with the root's own. -/
theorem holds_iff_folder {r : Root} {uri : String} :
    holds r uri = true ↔ r.folder.toList <+: (Uri.folder uri).toList := by
  simp only [holds, Bool.or_eq_true, List.isPrefixOf_iff_prefix, decide_eq_true_eq,
    ← String.toList_inj, Uri.folder]
  split
  · exact ⟨Or.rec id fun same => same ▸ List.prefix_rfl, .inl⟩
  · rw [String.toList_append]
    exact (or_comm.trans (or_congr_left eq_comm)).trans List.prefix_concat_iff.symm

/-- A resolver has the roots of a tree, each once, and remembers them in no other order than that of
their folders' lengths. -/
structure Shows (res : Resolver) (t : RootTree) : Prop where
  placed : ∀ s r, t s = some r → ∃ p : Place, p.segments = s ∧ p.root = r
  mem : ∀ p : Place, p.root ∈ res.roots ↔ t p.segments = some p.root
  made : ∀ r ∈ res.roots, ∃ p : Place, p.root = r
  keys : (res.roots.map Root.key).Nodup
  cache : res.sorted? = none ∨ res.sorted? = some (res.roots.mergeSort shorter)

namespace Shows

variable {res : Resolver} {t : RootTree}

theorem empty : Shows ⟨[], none⟩ fun _ => none where
  placed _ _ found := nomatch found
  mem _ := by simp
  made _ found := nomatch found
  keys := List.nodup_nil
  cache := .inl rfl

theorem add (h : res.Shows t) (p : Place) : (res.add p.root).Shows (t.put p) where
  placed s r found := by
    by_cases same : s = p.segments
    · subst same
      exact ⟨p, rfl, by simpa [RootTree.put] using found⟩
    · exact h.placed s r (by simpa [RootTree.put, same] using found)
  mem q := by
    show q.root ∈ put p.root res.roots ↔ _
    rw [mem_put h.keys, h.mem, Ne, Place.key_eq_iff, RootTree.put]
    by_cases same : q.segments = p.segments
    · simp [same, eq_comm]
    · have other : q.root ≠ p.root := fun root => same ((Place.key_eq_iff q p).1 (root ▸ rfl))
      simp [same, other]
  made r found := by
    rcases (mem_put h.keys).1 found with rfl | ⟨found, -⟩
    · exact ⟨p, rfl⟩
    · exact h.made r found
  keys := keys_put h.keys
  cache := .inl rfl

theorem remove (h : res.Shows t) (p : Place) :
    (res.remove p.root).Shows (Function.update t p.segments none) := by
  have placed : ∀ s r, Function.update t p.segments none s = some r →
      ∃ q : Place, q.segments = s ∧ q.root = r := by
    intro s r found
    by_cases same : s = p.segments
    · simp [same] at found
    · exact h.placed s r (by simpa [same] using found)
  have mem (q : Place) : q.root ∈ res.roots ∧ q.root.key ≠ p.root.key ↔
      Function.update t p.segments none q.segments = some q.root := by
    rw [h.mem, Ne, Place.key_eq_iff]
    by_cases same : q.segments = p.segments <;> simp [same]
  rw [Resolver.remove]
  split
  · exact {
      placed := placed
      mem := fun q => by rw [← mem q, List.mem_filter]; simp
      made := fun r found => h.made r (List.mem_filter.1 found).1
      keys := h.keys.sublist (List.filter_sublist.map _)
      cache := .inl rfl }
  · rename_i absent
    have other (r : Root) (found : r ∈ res.roots) : r.key ≠ p.root.key := by
      intro same
      exact absent (List.any_eq_true.2 ⟨r, found, by simpa using same⟩)
    exact {
      placed := placed
      mem := fun q => by rw [← mem q]; exact ⟨fun found => ⟨found, other _ found⟩, And.left⟩
      made := h.made
      keys := h.keys
      cache := h.cache }

theorem ofRoots (ps : List Place) :
    (Resolver.ofRoots (ps.map Place.root)).Shows (RootTree.ofPlaces ps) := by
  have grown (ps : List Place) (roots : List Root) (t : RootTree)
      (h : Shows ⟨roots, none⟩ t) :
      Shows ⟨(ps.map Place.root).foldl (fun done r => put r done) roots, none⟩
        (ps.foldl RootTree.put t) := by
    induction ps generalizing roots t with
    | nil => exact h
    | cons p ps ih => exact ih _ _ (h.add p)
  exact grown ps [] _ .empty

theorem remember (h : res.Shows t) : res.remember.Shows t where
  placed := h.placed
  mem := h.mem
  made := h.made
  keys := h.keys
  cache := by
    right
    rcases h.cache with none | some <;> simp [Resolver.remember, sorted, *]

theorem move (h : res.Shows t) (m : Move) : (m.apply res).Shows (t.after m) := by
  cases m with
  | add p => exact h.add p
  | remove p => exact h.remove p
  | replace ps => exact .ofRoots ps
  | ask => exact h.remember

/-- Whatever has been done to it, a resolver shows the tree that should have come of that. -/
theorem moves (h : res.Shows t) (ms : List Move) :
    (ms.foldl Move.apply res).Shows (ms.foldl RootTree.after t) := by
  induction ms generalizing res t with
  | nil => exact h
  | cons m ms ih => exact ih (h.move m)

theorem history (first : List Place) (moves : List Move) :
    (Resolver.history first moves).Shows (RootTree.history first moves) :=
  (Shows.ofRoots first).moves moves

theorem sorted_eq (h : res.Shows t) : res.sorted = res.roots.mergeSort shorter := by
  rcases h.cache with none | some <;> simp [sorted, *]

theorem pairwise_sorted (h : res.Shows t) :
    res.sorted.Pairwise fun r s => r.folder.length ≤ s.folder.length :=
  Current.pairwise_sorted h.sorted_eq

theorem mem_sorted (h : res.Shows t) {r : Root} : r ∈ res.sorted ↔ r ∈ res.roots :=
  Current.mem_sorted h.sorted_eq

/-- The roots whose folders hold a path are those that stand above it. -/
theorem holds_iff (h : res.Shows t) {p : FilePath} (plain : p.IsPlain) {r : Root} :
    r ∈ res.sorted.filter (holds · (Uri.ofPath p)) ↔ ∃ s, s <+: p.segments ∧ t s = some r := by
  have address (q : Place) :
      holds q.root (Uri.ofPath p) = true ↔ q.segments <+: p.segments := by
    rw [holds_iff_folder, Root.folder, q.uri_root,
      Uri.folder_prefix_iff q.absolute.isPlain plain]
    rfl
  rw [List.mem_filter, h.mem_sorted]
  constructor
  · rintro ⟨found, above⟩
    obtain ⟨q, rfl⟩ := h.made r found
    exact ⟨q.segments, (address q).1 above, (h.mem q).1 found⟩
  · rintro ⟨s, above, stands⟩
    obtain ⟨q, rfl, rfl⟩ := h.placed s r stands
    exact ⟨(h.mem q).2 stands, (address q).2 above⟩

/-- Above one path, longer folders are deeper ones. -/
theorem length_le (h : res.Shows t) {path s s' : List (List Char)} {r r' : Root} (above : s <+: path)
    (above' : s' <+: path) (stands : t s = some r) (stands' : t s' = some r')
    (le : r.folder.length ≤ r'.folder.length) : s.length ≤ s'.length := by
  obtain ⟨q, rfl, rfl⟩ := h.placed s r stands
  obtain ⟨q', rfl, rfl⟩ := h.placed s' r' stands'
  by_contra deeper
  have inner := List.prefix_of_prefix_length_le above' above (by omega)
  have same := ((Place.folder_prefix_iff q' q).2 inner).eq_of_length_le le
  exact deeper ((Place.folder_prefix_iff q q').1 (same ▸ List.prefix_rfl)).length_le

end Shows

end Resolver

namespace RootTree

variable {t : RootTree} {path : List (List Char)} {r r' : Root}

theorem eq_of_length {s s' : List (List Char)} (above : s <+: path) (above' : s' <+: path)
    (stands : t s = some r) (stands' : t s' = some r') (same : s.length = s'.length) : r = r' := by
  have := (List.prefix_of_prefix_length_le above above' same.le).eq_of_length same
  exact Option.some.inj (stands.symm.trans (this ▸ stands'))

theorem Innermost.unique (h : t.Innermost path r) (h' : t.Innermost path r') : r = r' := by
  obtain ⟨s, above, stands, deepest⟩ := h
  obtain ⟨s', above', stands', deepest'⟩ := h'
  exact eq_of_length above above' stands stands' (Nat.le_antisymm
    (deepest' s above (stands ▸ rfl)) (deepest s' above' (stands' ▸ rfl)))

theorem Outermost.unique (h : t.Outermost path r) (h' : t.Outermost path r') : r = r' := by
  obtain ⟨s, above, stands, highest⟩ := h
  obtain ⟨s', above', stands', highest'⟩ := h'
  exact eq_of_length above above' stands stands' (Nat.le_antisymm
    (highest s' above' (stands' ▸ rfl)) (highest' s above (stands ▸ rfl)))

end RootTree

namespace Resolver

variable {res : Resolver} {t : RootTree} {p : FilePath} {r : Root}

theorem innermost_of_innermost? (h : res.Shows t) (plain : p.IsPlain)
    (found : res.innermost? (Uri.ofPath p) = some r) : t.Innermost p.segments r := by
  obtain ⟨front, split⟩ := List.getLast?_eq_some_iff.1 found
  obtain ⟨s, above, stands⟩ := (h.holds_iff plain).1 (List.mem_of_getLast? found)
  refine ⟨s, above, stands, fun s' above' some_ => ?_⟩
  obtain ⟨r', stands'⟩ := Option.isSome_iff_exists.1 some_
  have member := (h.holds_iff plain).2 ⟨s', above', stands'⟩
  have sorted := h.pairwise_sorted.sublist (List.filter_sublist (p := (holds · (Uri.ofPath p))))
  rw [split] at member sorted
  rcases List.mem_append.1 member with before | last
  · exact h.length_le above' above stands' stands
      ((List.pairwise_append.1 sorted).2.2 r' before r List.mem_cons_self)
  · rw [List.mem_singleton] at last
    exact h.length_le above' above stands' stands (last ▸ Nat.le_refl _)

theorem outermost_of_innermost (h : res.Shows t) (inner : t.Innermost p.segments r) :
    t.Outermost p.segments (res.outermost r) := by
  obtain ⟨s, above, stands, deepest⟩ := inner
  obtain ⟨q, rfl, rfl⟩ := h.placed s r stands
  obtain ⟨o, found⟩ : ∃ o, (res.sorted.find? fun c =>
      c.folder.toList.isPrefixOf q.root.folder.toList) = some o := by
    refine Option.isSome_iff_exists.1 (List.find?_isSome.2 ⟨q.root, ?_, ?_⟩)
    · exact h.mem_sorted.2 ((h.mem q).2 stands)
    · exact List.isPrefixOf_iff_prefix.2 List.prefix_rfl
  obtain ⟨around, front, back, split, outside⟩ := List.find?_eq_some_iff_append.1 found
  have member : o ∈ res.roots := h.mem_sorted.1 (List.mem_of_find?_eq_some found)
  obtain ⟨q', rfl⟩ := h.made o member
  have within := (Place.folder_prefix_iff q' q).1 (List.isPrefixOf_iff_prefix.1 around)
  have first : res.outermost q.root = q'.root := by rw [outermost, found, Option.getD_some]
  rw [first]
  refine ⟨q'.segments, within.trans above, (h.mem q').1 member, fun s' above' some_ => ?_⟩
  obtain ⟨r', stands'⟩ := Option.isSome_iff_exists.1 some_
  obtain ⟨q'', rfl, rfl⟩ := h.placed s' r' stands'
  -- The root at `s'` is around the innermost one too, and so it does not come before `q'`.
  have holds := (Place.folder_prefix_iff q'' q).2
    (List.prefix_of_prefix_length_le above' above (deepest _ above' some_))
  have listed := h.mem_sorted.2 ((h.mem q'').2 stands')
  have sorted := h.pairwise_sorted
  rw [split] at listed sorted
  refine h.length_le (within.trans above) above' ((h.mem q').1 member) stands' ?_
  rcases List.mem_append.1 listed with before | after
  · have := outside _ before
    simp [List.isPrefixOf_iff_prefix.2 holds] at this
  · rcases List.mem_cons.1 after with same | after
    · exact same ▸ Nat.le_refl _
    · exact (List.pairwise_cons.1 (List.pairwise_append.1 sorted).2.1).1 _ after

theorem innermost?_eq_none_iff (h : res.Shows t) (plain : p.IsPlain) :
    res.innermost? (Uri.ofPath p) = none ↔ t.Bare p.segments := by
  rw [innermost?, List.getLast?_eq_none_iff, List.eq_nil_iff_forall_not_mem]
  simp only [h.holds_iff plain]
  constructor
  · intro none s above
    exact Option.eq_none_iff_forall_ne_some.2 fun r stands => none r ⟨s, above, stands⟩
  · rintro bare r ⟨s, above, stands⟩
    simp [bare s above] at stands

theorem innermost?_eq_some_iff (h : res.Shows t) (plain : p.IsPlain) :
    res.innermost? (Uri.ofPath p) = some r ↔ t.Innermost p.segments r := by
  refine ⟨innermost_of_innermost? h plain, fun inner => ?_⟩
  cases found : res.innermost? (Uri.ofPath p) with
  | none =>
    obtain ⟨s, above, stands, -⟩ := inner
    simp [(innermost?_eq_none_iff h plain).1 found s above] at stands
  | some r' => rw [inner.unique (innermost_of_innermost? h plain found)]

/-- Ownership is by whole segments, whatever has been done before: a path is contained by the root at
the deepest folder above it that has one, owned by the root at the highest, and by none exactly when
no folder above it has a root. -/
theorem owners_of_history (first : List Place) (moves : List Move) {document : String}
    (h : IsAbsolutePath document) :
    let res := history first moves
    let tree := RootTree.history first moves
    let path := (FilePath.ofText document).segments
    (∀ r, res.containing? document = .ok (some r) ↔ tree.Innermost path r) ∧
      (∀ r, res.resolve? document = .ok (some r) ↔ tree.Outermost path r) ∧
      (res.containing? document = .ok none ↔ tree.Bare path) ∧
      (res.resolve? document = .ok none ↔ tree.Bare path) := by
  intro res tree path
  have shows_ : res.Shows tree := (Shows.ofRoots first).moves moves
  have plain := h.isPlain
  have contained : res.containing? document =
      .ok (res.innermost? (Uri.ofPath (FilePath.ofText document))) := by
    rw [containing?, h.ofText_eq]
    rfl
  have owned : res.resolve? document =
      .ok ((res.innermost? (Uri.ofPath (FilePath.ofText document))).map res.outermost) := by
    rw [resolve?, contained]
    rfl
  have some_ (r : Root) := innermost?_eq_some_iff (r := r) shows_ plain
  have none_ := innermost?_eq_none_iff shows_ plain
  rw [contained, owned]
  simp only [Except.ok.injEq, Option.map_eq_none_iff, Option.map_eq_some_iff, some_, none_]
  refine ⟨fun _ => .rfl, fun r => ?_, .rfl, .rfl⟩
  constructor
  · rintro ⟨inner, deepest, rfl⟩
    exact outermost_of_innermost shows_ deepest
  · intro outer
    cases found : res.innermost? (Uri.ofPath (FilePath.ofText document)) with
    | none =>
      obtain ⟨s, above, stands, -⟩ := outer
      simp [none_.1 found s above] at stands
    | some inner =>
      have deepest := (some_ inner).1 found
      exact ⟨inner, deepest, (outermost_of_innermost shows_ deepest).unique outer⟩

/-- A nested root that was known first gives its documents away once an outer one is added. -/
theorem owners_nested :
    let sub : Place := ⟨"/proj/sub/", "", ⟨"file:///proj/sub", "sub"⟩, by decide, by rfl⟩
    let proj : Place := ⟨"/./proj", "", ⟨"file:///proj", "proj"⟩, by decide, by rfl⟩
    let twin : Place := ⟨"/proj/su", "", ⟨"file:///proj/su", "su"⟩, by decide, by rfl⟩
    let res := history [sub] [.ask, .add twin, .add proj]
    IsAbsolutePath "/proj//sub/a.lua" ∧
      res.containing? "/proj//sub/a.lua" = .ok (some sub.root) ∧
      res.resolve? "/proj//sub/a.lua" = .ok (some proj.root) := by
  intro sub proj twin res
  have absolute : IsAbsolutePath "/proj//sub/a.lua" := by decide
  have tree (s : List (List Char)) :
      RootTree.history [sub] [.ask, .add twin, .add proj] s =
        if s = ["proj".toList] then some proj.root
        else if s = ["proj".toList, "su".toList] then some twin.root
        else if s = ["proj".toList, "sub".toList] then some sub.root else none := by
    have ends : proj.segments = ["proj".toList] ∧ twin.segments = ["proj".toList, "su".toList] ∧
        sub.segments = ["proj".toList, "sub".toList] := by decide
    simp only [RootTree.history, RootTree.ofPlaces, RootTree.after, RootTree.put, List.foldl_cons,
      List.foldl_nil, Function.update_apply, ends]
  have segments : (FilePath.ofText "/proj//sub/a.lua").segments =
      ["proj".toList, "sub".toList, "a.lua".toList] := by decide
  have depths {s : List (List Char)}
      (stands : (RootTree.history [sub] [.ask, .add twin, .add proj] s).isSome) :
      1 ≤ s.length ∧ s.length ≤ 2 := by
    rw [tree] at stands
    split_ifs at stands with outer beside inner
    · exact outer ▸ by decide
    · exact beside ▸ by decide
    · exact inner ▸ by decide
    · cases stands
  obtain ⟨contained, owned, -⟩ := owners_of_history [sub] [.ask, .add twin, .add proj] absolute
  rw [segments] at contained owned
  refine ⟨absolute, (contained _).2 ⟨["proj".toList, "sub".toList], by decide, ?_, ?_⟩,
    (owned _).2 ⟨["proj".toList], by decide, ?_, ?_⟩⟩
  · rw [tree]
    rfl
  · exact fun s _ stands => (depths stands).2
  · rw [tree]
    rfl
  · exact fun s _ stands => (depths stands).1

end Resolver

end LanguageClient
