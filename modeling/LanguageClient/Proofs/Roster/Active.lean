import LanguageClient.Proofs.Client.Alone

/-!
The session that messages without a document go to. Whichever it is, it is on the roster and runs; and there
is none only if nothing runs, or if several sessions do and neither the one started last nor the default one
is among them.
-/

namespace LanguageClient.World

variable {w : World} {s : SessionId} {key : String} {e : String × SessionId}

theorem mem_running : e ∈ w.running ↔ e ∈ w.roster.sessions ∧ w.isRunning e.2 = true := List.mem_filter

theorem lt_of_running (h : w.isRunning s = true) : s < w.sessions.length := by
  refine Nat.lt_of_not_le fun out => ?_
  rw [isRunning, session, List.getD_eq_getElem?_getD, List.getElem?_eq_none out] at h
  cases h

/-- A registered session is found among those that run if it does. -/
theorem find_running (registered : w.registered? key = some s) (runs : w.isRunning s = true) :
    w.running.find? (fun e => e.1 = key) = some (key, s) := by
  obtain ⟨e, found, rfl⟩ := Option.map_eq_some_iff.1 registered
  have here : e.1 = key := by simpa using List.find?_some found
  subst here
  obtain ⟨-, before, after, same, others⟩ := List.find?_eq_some_iff_append.1 found
  have first : (e :: after).filter (fun e => w.isRunning e.2) =
      e :: after.filter fun e => w.isRunning e.2 := List.filter_cons_of_pos runs
  rw [running, same, List.filter_append, first]
  refine List.find?_eq_some_iff_append.2 ⟨by simp, _, _, rfl, fun e' there => ?_⟩
  exact others e' (List.mem_filter.1 there).1

/-- The active session is on the roster and runs. -/
theorem active?_running (h : w.active? = some s) : ∃ key, (key, s) ∈ w.running := by
  have found {key : String} (h : (w.running.find? fun e => e.1 = key).map (·.2) = some s) :
      ∃ key, (key, s) ∈ w.running := ⟨key, mem_of_lookup h⟩
  unfold active? at h
  dsimp only at h
  split at h
  · next e single =>
    cases h
    exact ⟨e.1, single ▸ List.mem_singleton_self e⟩
  · split at h
    · next last =>
      cases h
      obtain ⟨key, -, here⟩ := Option.bind_eq_some_iff.1 last
      exact found here
    · exact found h

/-- The session that was started last is the active one as long as it is registered and runs. -/
theorem active?_last (last : w.roster.lastStarted = some key) (registered : w.registered? key = some s)
    (runs : w.isRunning s = true) : w.active? = some s := by
  have here := find_running registered runs
  unfold active?
  dsimp only
  split
  · next e single =>
    rw [single] at here
    have same := List.mem_singleton.1 (List.mem_of_find?_eq_some here)
    rw [← same]
  · rw [last, Option.bind_some, here]
    rfl

theorem active?_eq_none : w.active? = none ↔ (∀ e, w.running ≠ [e]) ∧
    (∀ e ∈ w.running, w.roster.lastStarted ≠ some e.1) ∧ ∀ e ∈ w.running, e.1 ≠ Session.defaultKey := by
  have absent (key : String) : (w.running.find? fun e => e.1 = key).map (·.2) = none ↔
      ∀ e ∈ w.running, e.1 ≠ key := by simp
  unfold active?
  dsimp only
  split
  · next e single => simp [single]
  · next several =>
    have several : ∀ e, w.running ≠ [e] := fun e single => several e single
    cases last : w.roster.lastStarted with
    | none => simp [several]
    | some key =>
      rw [Option.bind_some]
      cases found : (w.running.find? fun e => e.1 = key).map (·.2) with
      | none =>
        have others := (absent key).1 found
        rw [absent]
        refine ⟨fun none => ⟨several, fun e he same => others e he ?_, none⟩, fun h => h.2.2⟩
        exact (Option.some.inj same).symm
      | some s =>
        refine ⟨nofun, fun h => ?_⟩
        exact absurd rfl (h.2.1 _ (mem_of_lookup found))

end LanguageClient.World
