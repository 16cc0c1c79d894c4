import LanguageClient.Proofs.Roots.Identity
import LanguageClient.Proofs.Roots.Paths

/-!
The roots that own documents: those with no other around them. In the order of their folders' lengths they
are met before all that they hold, so that a scan which leaves out what it has seen finds each once.
-/

namespace LanguageClient

namespace Root

/-- Made of a path that is absolute, whatever else the path may be. -/
def FromPath (r : Root) : Prop :=
  ∃ path name, path.toList.head? = some '/' ∧ ofPath path name = .ok r

theorem uri_of_ofPath {r : Root} {path name : String} (h : ofPath path name = .ok r) :
    Uri.ofText path = .ok r.uri := by
  unfold ofPath at h
  cases made : Uri.ofText path with
  | error e => simp [made, bind, Except.bind] at h
  | ok uri =>
    cases shown : Uri.path uri with
    | error e => simp [made, shown, bind, Except.bind] at h
    | ok text =>
      simp only [made, shown, bind, Except.bind, Except.ok.injEq] at h
      rw [← h]

/-- Made of a path from a root of the file system. -/
def Rooted (r : Root) : Prop := ∃ path name, FilePath.IsRooted path ∧ ofPath path name = .ok r

theorem Rooted.uri_eq {r : Root} (h : r.Rooted) : ∃ front segments,
    r.uri.toList = front ++ Uri.written (FilePath.join segments) ∧
      (front = "file:///".toList ∨ front = "file:////".toList) ∧ ∀ s ∈ segments, s ≠ [] ∧ '/' ∉ s := by
  obtain ⟨path, name, rooted, made⟩ := h
  have address := uri_of_ofPath made
  rw [rooted.ofText_eq, Except.ok.injEq] at address
  have whole : r.uri.toList = "file://".toList ++ Uri.written (FilePath.ofText path).chars := by
    rw [← address]
    exact String.toList_ofList
  have chars : (FilePath.ofText path).chars = List.replicate (FilePath.ofText path).slashes '/' ++
      FilePath.join (FilePath.ofText path).segments := by
    simp [FilePath.chars, rooted.slashes]
  have slashes : (FilePath.ofText path).slashes = 1 ∨ (FilePath.ofText path).slashes = 2 :=
    FilePath.rootSlashes_of_slash rooted.slash
  rw [chars, Uri.written_append, ← List.append_assoc] at whole
  refine ⟨_, _, whole, ?_, fun _ => FilePath.segment_ofText⟩
  rcases slashes with one | two
  · rw [one]
    exact .inl (by decide)
  · rw [two]
    exact .inr (by decide)

/-- The root of the file system is told by its key, whether it has one slash or two; any other path gives
its key to its folder, which is longer. -/
theorem Rooted.cases {r : Root} (h : r.Rooted) : (r.key = "file:" ∧ r.folder.length ≤ 9) ∨
    (r.key ≠ "file:" ∧ 10 ≤ r.folder.length ∧ r.folder = r.key ++ "/") := by
  obtain ⟨front, segments, whole, slashes, parts⟩ := h.uri_eq
  cases segments with
  | nil =>
    left
    obtain ⟨uri, name⟩ := r
    rcases slashes with rfl | rfl
    · obtain rfl : uri = "file:///" := String.toList_inj.1 (whole.trans (by decide))
      exact ⟨by simp only [key]; decide, by simp only [Root.folder]; decide⟩
    · obtain rfl : uri = "file:////" := String.toList_inj.1 (whole.trans (by decide))
      exact ⟨by simp only [key]; decide, by simp only [Root.folder]; decide⟩
  | cons s rest =>
    right
    have last : r.uri.toList.getLast? ≠ some '/' :=
      whole ▸ Uri.getLast?_written_join (List.cons_ne_nil s rest) parts front
    have below : FilePath.join (s :: rest) ≠ [] := by
      have some_ := (parts s List.mem_cons_self).1
      cases rest <;> simp [FilePath.join, some_]
    have long : 9 ≤ r.uri.length := by
      have length : 8 ≤ front.length := by rcases slashes with rfl | rfl <;> decide
      have more := List.length_pos_iff.2 (Uri.written_ne_nil below)
      rw [← String.length_toList, whole, List.length_append]
      omega
    have some_ : r.uri.toList ≠ [] := List.length_pos_iff.1 (by rw [String.length_toList]; omega)
    have trimmed : r.trimmed = r.uri.toList := trimmed_eq_self last
    have key : r.key = r.uri := by rw [key_eq, if_neg (trimmed ▸ some_), trimmed, String.ofList_toList]
    have folder : r.folder = r.key ++ "/" := by rw [Root.folder, Uri.folder, if_neg last, key]
    have slash : "/".length = 1 := by decide
    refine ⟨fun top => ?_, by rw [folder, key, String.length_append]; omega, folder⟩
    rw [key] at top
    exact absurd long (by rw [top]; decide)

/-- A root of a path with the key of a rooted one is rooted. -/
theorem FromPath.rooted {q r : Root} (h : r.FromPath) (rooted : q.Rooted) (same : r.key = q.key) :
    r.Rooted := by
  obtain ⟨path, name, slash, made⟩ := h
  refine ⟨path, name, ⟨slash, fun sign => ?_⟩, made⟩
  -- a path that is an address is its own, and starts with a slash
  have address : Uri.isAddress path = true := by
    rw [Uri.isAddress, Uri.occurs_iff.2 sign, Bool.true_or]
  have uri := uri_of_ofPath made
  rw [Uri.ofText_address address, Except.ok.injEq] at uri
  obtain ⟨front, segments, whole, slashes, -⟩ := rooted.uri_eq
  have first : q.uri.toList.head? = some 'f' := by
    rw [whole]
    rcases slashes with rfl | rfl <;> rfl
  obtain ⟨n, split⟩ := r.exists_slashes
  obtain ⟨n', split'⟩ := q.exists_slashes
  rw [split'] at first
  rw [uri, split, trimmed_of_key same] at slash
  cases trimmed : q.trimmed with
  | nil =>
    rw [trimmed, List.nil_append] at first
    cases n' <;> simp [List.replicate_succ] at first
  | cons c cs =>
    rw [trimmed] at first slash
    cases first
    cases slash

end Root

namespace Resolver

variable {res : Resolver} {r s : Root}

/-- Of some roots, those with no other around them. -/
def topsOf (roots : List Root) (res : Resolver) : List Root := roots.filter fun r => res.outermost r = r

/-- The roots with no other around them, the shortest folder first. -/
def tops (res : Resolver) : List Root := res.topsOf res.sorted

/-- The keys of those with no other around them. -/
def seen (roots : List Root) (res : Resolver) : List String := (res.topsOf roots).map Root.key

theorem topsOf_snoc (roots : List Root) (r : Root) :
    res.topsOf (roots ++ [r]) =
      if res.outermost r = r then res.topsOf roots ++ [r] else res.topsOf roots := by
  rw [topsOf, List.filter_append, List.filter_singleton]
  split <;> simp_all [topsOf]

theorem mem_tops : r ∈ res.tops ↔ r ∈ res.sorted ∧ res.outermost r = r := by
  rw [tops, topsOf, List.mem_filter, decide_eq_true_eq]

/-- The outermost root around a root comes first among those around it. -/
theorem outermost_split (h : r ∈ res.sorted) : ∃ front back, res.sorted = front ++ res.outermost r :: back ∧
    (res.outermost r).folder.toList <+: r.folder.toList ∧
      ∀ s ∈ front, ¬ s.folder.toList <+: r.folder.toList := by
  obtain ⟨o, found⟩ : ∃ o, (res.sorted.find? fun s =>
      s.folder.toList.isPrefixOf r.folder.toList) = some o := by
    refine Option.isSome_iff_exists.1 (List.find?_isSome.2 ⟨r, h, ?_⟩)
    exact List.isPrefixOf_iff_prefix.2 List.prefix_rfl
  have first : res.outermost r = o := by rw [outermost, found, Option.getD_some]
  obtain ⟨around, front, back, split, outside⟩ := List.find?_eq_some_iff_append.1 found
  rw [first]
  refine ⟨front, back, split, List.isPrefixOf_iff_prefix.1 around, fun s hs inside => ?_⟩
  have := outside s hs
  simp [List.isPrefixOf_iff_prefix.2 inside] at this

theorem outermost_mem_sorted (h : r ∈ res.sorted) : res.outermost r ∈ res.sorted := by
  obtain ⟨front, back, split, -⟩ := outermost_split h
  rw [split]
  exact List.mem_append_right _ List.mem_cons_self

theorem Current.outermost_length_le (current : res.Current) (h : r ∈ res.sorted) (h' : s ∈ res.sorted)
    (around : s.folder.toList <+: r.folder.toList) :
    (res.outermost r).folder.length ≤ s.folder.length := by
  obtain ⟨front, back, split, -, outside⟩ := outermost_split h
  have sorted := current.pairwise_sorted
  rw [split] at sorted h'
  rcases List.mem_append.1 h' with before | behind
  · exact absurd around (outside s before)
  · rcases List.mem_cons.1 behind with rfl | behind
    · exact Nat.le_refl _
    · exact (List.pairwise_cons.1 (List.pairwise_append.1 sorted).2.1).1 s behind

section

variable (regular : res.Regular) (named : ∀ r ∈ res.roots, r.uri ≠ "")

include regular named

theorem eq_of_folder (h : r ∈ res.sorted) (h' : s ∈ res.sorted) (same : r.folder = s.folder) : r = s := by
  have mem {r : Root} (h : r ∈ res.sorted) := regular.current.mem_sorted.1 h
  exact List.inj_on_of_nodup_map regular.keys (mem h) (mem h')
    (Root.key_of_folder (named r (mem h)) (named s (mem h')) same)

/-- Only the outermost root around a root is around that. -/
theorem eq_outermost (h : r ∈ res.sorted) (h' : s ∈ res.sorted)
    (around : s.folder.toList <+: (res.outermost r).folder.toList) : s = res.outermost r := by
  obtain ⟨-, -, -, inside, -⟩ := outermost_split h
  have long := regular.current.outermost_length_le h h' (around.trans inside)
  refine eq_of_folder regular named h' (outermost_mem_sorted h) (String.toList_inj.1 ?_)
  exact around.eq_of_length_le long

theorem outermost_outermost (h : r ∈ res.sorted) :
    res.outermost (res.outermost r) = res.outermost r := by
  have member := outermost_mem_sorted h
  obtain ⟨-, -, -, around, -⟩ := outermost_split member
  exact eq_outermost regular named h (outermost_mem_sorted member) around

/-- No top is around another. -/
theorem eq_of_prefix (h : r ∈ res.tops) (h' : s ∈ res.tops)
    (around : r.folder.toList <+: s.folder.toList) : r = s := by
  obtain ⟨listed, -⟩ := mem_tops.1 h
  obtain ⟨listed', top⟩ := mem_tops.1 h'
  rw [eq_outermost regular named listed' listed (top.symm ▸ around), top]

/-- In the scan of the sorted roots a root is the outermost one around itself, or that one has been met. -/
theorem outermost_before {done rest : List Root} (split : res.sorted = done ++ r :: rest) :
    res.outermost r = r ∨ res.outermost r ∈ res.topsOf done := by
  have listed : r ∈ res.sorted := split ▸ List.mem_append_right _ List.mem_cons_self
  obtain ⟨front, back, split', -, outside⟩ := outermost_split listed
  have top := outermost_outermost regular named listed
  rw [split] at split'
  rcases List.append_eq_append_iff.1 split' with ⟨between, rfl, next⟩ | ⟨between, rfl, next⟩
  · cases between with
    | nil => exact .inl (List.cons.inj next).1.symm
    | cons x between =>
      obtain ⟨rfl, -⟩ := List.cons.inj next
      exact absurd List.prefix_rfl
        (outside r (List.mem_append_right _ List.mem_cons_self))
  · cases between with
    | nil => exact .inl (List.cons.inj next).1
    | cons x between =>
      obtain ⟨rfl, -⟩ := List.cons.inj next
      refine .inr (List.mem_filter.2 ⟨List.mem_append_right _ List.mem_cons_self, ?_⟩)
      exact decide_eq_true top

/-- In the scan of the sorted roots the key of an outermost root has been met exactly when that is another. -/
theorem key_met {done rest : List Root} (split : res.sorted = done ++ r :: rest) :
    (res.outermost r).key ∈ res.seen done ↔ res.outermost r ≠ r := by
  constructor
  · intro met top
    obtain ⟨s, hs, twin⟩ := List.mem_map.1 met
    rw [top] at twin
    have keys := regular.sorted_keys
    rw [split, List.map_append, List.nodup_append] at keys
    exact keys.2.2 _ (List.mem_map_of_mem (List.mem_filter.1 hs).1) _ List.mem_cons_self twin
  · intro inner
    exact List.mem_map_of_mem ((outermost_before regular named split).resolve_left inner)

end

theorem keys_tops (regular : res.Regular) : (res.tops.map Root.key).Nodup :=
  regular.sorted_keys.sublist (List.filter_sublist.map _)

end Resolver
end LanguageClient
