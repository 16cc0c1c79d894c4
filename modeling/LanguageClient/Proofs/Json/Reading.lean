import LanguageClient.Proofs.Json.RoundTrip

/-!
What is read from a text. Its numbers are written in the one way that rounding writes them, and of members
with one name a single one is left, so that its own text says everything about it.
-/

namespace LanguageClient.Json

variable {v : Value} {entries : Entries} {name : String}
variable {cs rest : List Char} {fuel : Nat}

theorem Faithful.members (h : Faithful (.map entries)) : ∃ members : List (String × Value),
    entries = entriesOf members ∧ (∀ m ∈ members, Faithful m.2) ∧ (members.map (·.1)).Nodup := by
  generalize same : Value.map entries = v at h
  cases h with
  | record members each once => exact ⟨members, Value.map.inj same, each, once⟩
  | _ => cases same

theorem Faithful.field (h : Faithful (.map entries)) (found : entries.field? name = some v) :
    Faithful v := by
  obtain ⟨members, rfl, each, -⟩ := h.members
  obtain ⟨e, first, rfl⟩ := Option.map_eq_some_iff.1 found
  obtain ⟨m, member, rfl⟩ := List.mem_map.1 (List.mem_of_find?_eq_some first)
  exact each m member

/-- A member that is there already keeps its place and gets the value. -/
theorem put_known {members : List (String × Value)} (known : name ∈ members.map (·.1)) : ∃ members',
    Entries.put (.text name) v (entriesOf members) = entriesOf members' ∧
      members'.map (·.1) = members.map (·.1) ∧ ∀ m ∈ members', m ∈ members ∨ m.2 = v := by
  induction members with
  | nil => cases known
  | cons first rest ih =>
    show ∃ members', (if (Key.text first.1).same (.text name) then (Key.text first.1, v) :: entriesOf rest
      else (Key.text first.1, first.2) :: Entries.put (.text name) v (entriesOf rest)) = _ ∧ _
    rw [Key.same_text]
    by_cases here : first.1 = name
    · rw [if_pos (by simpa using here)]
      refine ⟨(first.1, v) :: rest, rfl, rfl, List.forall_mem_cons.2 ⟨.inr rfl, fun m later => ?_⟩⟩
      exact .inl (List.mem_cons_of_mem _ later)
    · rw [if_neg (by simpa using here)]
      have later : name ∈ rest.map (·.1) := (List.mem_cons.1 known).resolve_left (Ne.symm here)
      obtain ⟨members', same, names, from_⟩ := ih later
      refine ⟨first :: members', ?_, ?_, List.forall_mem_cons.2 ⟨.inl List.mem_cons_self, fun m hm => ?_⟩⟩
      · rw [same]
        rfl
      · rw [List.map_cons, names, List.map_cons]
      · exact (from_ m hm).imp_left (List.mem_cons_of_mem _)

theorem Faithful.put (h : Faithful (.map entries)) (value : Faithful v) :
    Faithful (.map (Entries.put (.text name) v entries)) := by
  obtain ⟨members, rfl, each, once⟩ := h.members
  by_cases known : name ∈ members.map (·.1)
  · obtain ⟨members', same, names, from_⟩ := put_known (v := v) known
    rw [same]
    refine .record members' (fun m hm => ?_) (names ▸ once)
    rcases from_ m hm with old | new
    · exact each m old
    · exact new ▸ value
  · rw [put_entriesOf known]
    refine .record (members ++ [(name, v)]) (List.forall_mem_append.2 ⟨each, ?_⟩) ?_
    · exact List.forall_mem_singleton.2 value
    · rw [List.map_append, List.map_singleton]
      simpa using once.concat known

theorem faithful_readWord (h : readWord cs = some (v, rest)) : Faithful v := by
  obtain ⟨⟨word, w⟩, listed, reads⟩ := List.exists_of_findSome?_eq_some h
  dsimp only at reads
  split at reads
  · cases reads
    have words_ : ∀ e ∈ words, Faithful e.2 := by
      simp only [words, List.forall_mem_cons]
      exact ⟨.null, .bool true, .bool false, .float .nan trivial, .float (.infinite false) trivial,
        .float (.infinite true) trivial, fun _ none => absurd none List.not_mem_nil⟩
    exact words_ _ listed
  · cases reads

theorem faithful_readNumber (h : readNumber cs = some (v, rest)) : Faithful v := by
  unfold readNumber at h
  obtain ⟨⟨whole, rest'⟩, -, h⟩ := Option.bind_eq_some_iff.1 h
  dsimp only at h
  split at h
  · cases h
    exact .int _
  · cases h
    exact .float _ (Binary64.canonical_ofDecimal _ _ _)

/-- With so much fuel only what is faithful is read. -/
structure ReadsFaithful (fuel : Nat) : Prop where
  value {cs rest : List Char} {v : Value} (reads : readValue fuel cs = some (v, rest)) : Faithful v
  items {done : List Value} {cs rest : List Char} {v : Value} (each : ∀ x ∈ done, Faithful x)
    (reads : readItems fuel done cs = some (v, rest)) : Faithful v
  members {done : Entries} {cs rest : List Char} {v : Value} (sofar : Faithful (.map done))
    (reads : readMembers fuel done cs = some (v, rest)) : Faithful v

theorem faithful_empty : Faithful (.map []) := .record [] (fun _ none => nomatch none) List.nodup_nil

theorem ReadsFaithful.next_value (h : ReadsFaithful fuel) (reads : readValue (fuel + 1) cs = some (v, rest)) :
    Faithful v := by
  unfold readValue at reads
  split at reads
  · split at reads
    · cases reads
      exact .text _
    · cases reads
  · split at reads
    · cases reads
      exact .list [] fun _ none => (List.not_mem_nil none).elim
    · exact h.items (fun _ none => (List.not_mem_nil none).elim) reads
  · split at reads
    · cases reads
      exact faithful_empty
    · exact h.members faithful_empty reads
  · split at reads
    · next word =>
      cases reads
      exact faithful_readWord word
    · exact faithful_readNumber reads

theorem ReadsFaithful.next_items (h : ReadsFaithful fuel) {done : List Value}
    (each : ∀ x ∈ done, Faithful x) (reads : readItems (fuel + 1) done cs = some (v, rest)) :
    Faithful v := by
  unfold readItems at reads
  split at reads
  · cases reads
  · next item _ first =>
    have each : ∀ x ∈ item :: done, Faithful x := List.forall_mem_cons.2 ⟨h.value first, each⟩
    split at reads
    · exact h.items each reads
    · cases reads
      exact .list _ fun x hx => each x (List.mem_reverse.1 hx)
    · cases reads

theorem ReadsFaithful.next_members (h : ReadsFaithful fuel) {done : Entries} (sofar : Faithful (.map done))
    (reads : readMembers (fuel + 1) done cs = some (v, rest)) : Faithful v := by
  unfold readMembers at reads
  split at reads
  · split at reads
    · cases reads
    · next name _ _ =>
      split at reads
      · split at reads
        · cases reads
        · next value _ first =>
          have sofar : Faithful (.map (Entries.put (.text name) value done)) := sofar.put (h.value first)
          split at reads
          · exact h.members sofar reads
          · cases reads
            exact sofar
          · cases reads
      · cases reads
  · cases reads

theorem readsFaithful (fuel : Nat) : ReadsFaithful fuel := by
  induction fuel with
  | zero => exact ⟨nofun, fun _ => nofun, fun _ => nofun⟩
  | succ fuel ih => exact ⟨ih.next_value, ih.next_items, ih.next_members⟩

/-- What is read is what its text says. -/
theorem faithful_read? (h : read? cs = some v) : Faithful v := by
  unfold read? at h
  split at h
  · next reads =>
    split at h
    · cases h
      exact (readsFaithful _).value reads
    · cases h
  · cases h

/-- The text of what has been read is read as the same again. -/
theorem read?_print_of_read? {style : Style} (legible : style.Legible) (h : read? cs = some v) :
    read? (print style v) = some v :=
  read?_print legible (faithful_read? h)

end LanguageClient.Json
