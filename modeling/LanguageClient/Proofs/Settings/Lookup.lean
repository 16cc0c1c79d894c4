import LanguageClient.Proofs.Roots.Layers

/-!
A lookup in settings, told without the sort: the value at a place is that of the longest folder in front
of the place which has one of its own, and where there is no such folder it is the value outside every
folder.
-/

namespace LanguageClient

theorem Entries.has_eq (k : Key) (entries : Entries) : entries.has k = (entries.lookup? k).isSome := by
  rw [has, lookup?, Option.isSome_map, Bool.eq_iff_iff, List.any_eq_true, List.find?_isSome]

namespace Settings

variable {s s' : Settings} {place folder : String} {k : Key} {v : Value} {f : String × Entries}
  {folders : List (String × Entries)} {values : Entries}

/-- No folder has two layers. -/
def Once (s : Settings) : Prop := (s.folders.map (·.1)).Nodup

/-- The value of a key in the layer of one folder. -/
def own (folder : String) (k : Key) (s : Settings) : Option Value :=
  (s.folders.find? fun f => f.1 = folder).bind fun f => f.2.lookup? k

/-- The folders that have a value of their own for a key. -/
def having (k : Key) (s : Settings) : List String :=
  (s.folders.filter fun f => f.2.has k).map (·.1)

/-- Some folder around a place has a value of its own for a key. -/
def Covered (s : Settings) (k : Key) (place : String) : Prop :=
  ∃ folder ∈ s.having k, folder.toList <+: place.toList

theorem own_of_mem (once : s.Once) (member : f ∈ s.folders) : s.own f.1 k = f.2.lookup? k := by
  have first : s.folders.find? (fun g => g.1 = f.1) = some f := by
    cases found : s.folders.find? (fun g => g.1 = f.1) with
    | none => exact absurd (decide_eq_true rfl) (List.find?_eq_none.1 found f member)
    | some g =>
      have name : g.1 = f.1 := by simpa using List.find?_some found
      rw [List.inj_on_of_nodup_map once (List.mem_of_find?_eq_some found) member name]
  rw [own, first]
  rfl

theorem mem_having (once : s.Once) : folder ∈ s.having k ↔ (s.own folder k).isSome := by
  simp only [having, List.mem_map, List.mem_filter, Entries.has_eq]
  constructor
  · rintro ⟨f, ⟨member, has⟩, rfl⟩
    rwa [own_of_mem once member]
  · intro has
    obtain ⟨v, value⟩ := Option.isSome_iff_exists.1 has
    obtain ⟨f, found, value⟩ := Option.bind_eq_some_iff.1 value
    have name : f.1 = folder := by simpa using List.find?_some found
    exact ⟨f, ⟨List.mem_of_find?_eq_some found, value ▸ rfl⟩, name⟩

theorem firstIn_append (layers rest : List Entries) :
    firstIn k (layers ++ rest) = (layers.findSome? (Entries.lookup? k)).or (firstIn k rest) := by
  induction layers with
  | nil => rfl
  | cons layer layers ih =>
    rw [List.cons_append, firstIn, ih, List.findSome?_cons]
    cases layer.lookup? k <;> rfl

theorem valueAt_place : s.valueAt k (some place) =
    ((s.around place).findSome? fun f => f.2.lookup? k).or (s.valueAt k none) := by
  simp only [valueAt, firstIn_append, List.findSome?_map]
  rfl

/-- The value at a place is that of the longest folder around it with a value of its own, if there is
one. -/
theorem valueAt_cases (once : s.Once) (k : Key) (place : String) :
    (∃ folder, Deepest (s.having k) place folder ∧ s.valueAt k (some place) = s.own folder k) ∨
      ¬ s.Covered k place ∧ s.valueAt k (some place) = s.valueAt k none := by
  rw [valueAt_place]
  cases search : (s.around place).findSome? fun f => f.2.lookup? k with
  | none =>
    refine .inr ⟨fun ⟨folder, has, above⟩ => ?_, rfl⟩
    obtain ⟨f, found, rfl⟩ := List.mem_map.1 has
    obtain ⟨member, has⟩ := List.mem_filter.1 found
    rw [Entries.has_eq, List.findSome?_eq_none_iff.1 search f (mem_around.2 ⟨member, above⟩)] at has
    cases has
  | some v =>
    obtain ⟨front, f, back, split, value, bare⟩ := List.findSome?_eq_some_iff.1 search
    obtain ⟨member, above⟩ := mem_around.1 (split ▸ List.mem_append_right front List.mem_cons_self)
    have sorted : (s.around place).Pairwise fun f g => g.1.length ≤ f.1.length := pairwise_around
    have own_ := own_of_mem (k := k) once member
    refine .inl ⟨f.1, ⟨(mem_having once).2 (by rw [own_, value]; rfl), above, fun g has above' => ?_⟩, ?_⟩
    · obtain ⟨g, found, rfl⟩ := List.mem_map.1 has
      obtain ⟨member', has⟩ := List.mem_filter.1 found
      have candidate : g ∈ s.around place := mem_around.2 ⟨member', above'⟩
      rw [split] at candidate sorted
      rcases List.mem_append.1 candidate with before | after
      · rw [Entries.has_eq, bare g before] at has
        cases has
      · rcases List.mem_cons.1 after with rfl | after
        · exact Nat.le_refl _
        · exact (List.pairwise_cons.1 (List.pairwise_append.1 sorted).2.1).1 g after
    · rw [own_, value]
      rfl

theorem valueAt_of_deepest (once : s.Once) (deepest : Deepest (s.having k) place folder) :
    s.valueAt k (some place) = s.own folder k := by
  rcases s.valueAt_cases once k place with ⟨folder', deepest', value⟩ | ⟨bare, -⟩
  · rw [value, deepest'.unique deepest]
  · exact absurd ⟨folder, deepest.mem, deepest.above⟩ bare

theorem valueAt_of_not_covered (once : s.Once) (bare : ¬ s.Covered k place) :
    s.valueAt k (some place) = s.valueAt k none := by
  rcases s.valueAt_cases once k place with ⟨folder, deepest, -⟩ | ⟨-, value⟩
  · exact absurd ⟨folder, deepest.mem, deepest.above⟩ bare
  · exact value

theorem exists_deepest (once : s.Once) (covered : s.Covered k place) :
    ∃ folder, Deepest (s.having k) place folder ∧ s.valueAt k (some place) = s.own folder k :=
  (s.valueAt_cases once k place).resolve_right fun bare => bare.1 covered

section

variable (once : s.Once) (once' : s'.Once) (outside : s'.valueAt k none = s.valueAt k none)
include once once' outside

/-- What the folders around a place have of their own, and what there is outside, decide the value. -/
theorem valueAt_congr (same : ∀ folder, folder.toList <+: place.toList → s'.own folder k = s.own folder k) :
    s'.valueAt k (some place) = s.valueAt k (some place) := by
  have has {folder : String} (above : folder.toList <+: place.toList) :
      folder ∈ s'.having k ↔ folder ∈ s.having k := by
    rw [mem_having once, mem_having once', same folder above]
  by_cases covered : s.Covered k place
  · obtain ⟨folder, deepest, value⟩ := exists_deepest once covered
    have deepest' : Deepest (s'.having k) place folder :=
      ⟨(has deepest.above).2 deepest.mem, deepest.above,
        fun g found above => deepest.longest g ((has above).1 found) above⟩
    rw [value, valueAt_of_deepest once' deepest', same folder deepest.above]
  · have covered' : ¬ s'.Covered k place :=
      fun ⟨g, found, above⟩ => covered ⟨g, (has above).1 found, above⟩
    rw [valueAt_of_not_covered once covered, valueAt_of_not_covered once' covered', outside]

theorem valueAt_congr_all (same : ∀ folder, s'.own folder k = s.own folder k) (place : Option String) :
    s'.valueAt k place = s.valueAt k place := by
  cases place with
  | none => exact outside
  | some place => exact valueAt_congr once once' outside fun folder _ => same folder

end

end Settings
end LanguageClient
