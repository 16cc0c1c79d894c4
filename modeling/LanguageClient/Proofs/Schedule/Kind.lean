import LanguageClient.Proofs.Schedule.Around

/-!
What settles a cell stays the same, and so does what a request to cancel can reach.
-/

namespace LanguageClient.Schedule

variable {φ ρ κ : Type}

namespace Loop

def kind? (c : CellId) (l : Loop φ ρ κ) : Option Source := (l.cells[c]?).map (·.source.kind)

theorem kind?_of_cells {c : CellId} {l l' : Loop φ ρ κ} (h : l'.cells = l.cells) :
    l'.kind? c = l.kind? c := by
  rw [kind?, kind?, h]

theorem kind?_settle (c d : CellId) (o : Outcome ρ) (l : Loop φ ρ κ) :
    (l.settle c o).kind? d = l.kind? d := by
  unfold settle
  split
  · next found =>
    have hc : c < l.cells.length := (List.getElem?_eq_some_iff.1 found).1
    by_cases same : c = d
    · subst same
      rw [kind?, kind?, found, List.getElem?_set_self hc]
      rfl
    · simp [kind?, List.getElem?_set_ne same]
  · rfl

theorem kind?_watch (c d : CellId) (waker : Waker κ) (l : Loop φ ρ κ) :
    (l.watch c waker).kind? d = l.kind? d := by
  unfold watch
  split
  · next found =>
    have hc : c < l.cells.length := (List.getElem?_eq_some_iff.1 found).1
    by_cases same : c = d
    · subst same
      rw [kind?, kind?, found, List.getElem?_set_self hc]
      rfl
    · simp [kind?, List.getElem?_set_ne same]
  · rfl

theorem kind?_setSource {c : CellId} {source : Source} {l : Loop φ ρ κ}
    (h : ∀ k, l.kind? c = some k → source.kind = k) (d : CellId) :
    (l.setSource c source).kind? d = l.kind? d := by
  simp only [kind?, setSource, List.getElem?_modify]
  cases found : l.cells[d]? with
  | none => rfl
  | some cell =>
    by_cases same : c = d
    · subst same
      have known := h cell.source.kind (by rw [kind?, found]; rfl)
      simp [known]
    · simp [same]

theorem kind?_newCell {source : Source} {c : CellId} {l : Loop φ ρ κ} (h : c < l.cells.length) :
    (l.newCell source).2.kind? c = l.kind? c := by
  rw [kind?, newCell, List.getElem?_append_left h]
  rfl

theorem kind?_newCell_self (source : Source) (l : Loop φ ρ κ) :
    (l.newCell source).2.kind? l.cells.length = some source.kind := by
  simp [kind?, newCell]

theorem kind?_countDown (c d : CellId) (ok : ρ) (l : Loop φ ρ κ) :
    (l.countDown c ok).kind? d = l.kind? d := by
  unfold countDown
  dsimp only
  split
  · next members left cancelled wakers found =>
    have same : (l.setSource c (.group members (left - 1) cancelled)).kind? d = l.kind? d := by
      refine kind?_setSource (fun k hk => ?_) d
      rw [kind?, found] at hk
      exact Option.some.inj hk
    split
    · exact same
    · exact (kind?_settle c d _ _).trans same
  · next left wakers found =>
    have same : (l.setSource c (.countdown (left - 1))).kind? d = l.kind? d := by
      refine kind?_setSource (fun k hk => ?_) d
      rw [kind?, found] at hk
      exact Option.some.inj hk
    split
    · exact same
    · exact (kind?_settle c d _ _).trans same
  · rfl

theorem kind?_cancel (c d : CellId) (l : Loop φ ρ κ) : (l.cancel c).2.kind? d = l.kind? d := by
  have keeps : CancelKeeps (fun l' : Loop φ ρ κ => ∀ d, l'.kind? d = l.kind? d)
      (fun _ => True) (fun _ => True) := {
    settle := fun l' e _ _ h _ _ d => (kind?_settle e d _ l').trans (h d)
    mark := fun _ _ _ _ _ _ h => h
    group := fun l' e source before cell _ h found same _ h' d => by
      refine (kind?_setSource (fun k hk => ?_) d).trans (h' d)
      rw [h' e, ← h e, kind?, found] at hk
      exact same.trans (Option.some.inj hk)
    owner := fun _ _ _ _ _ _ _ => trivial
    waits := fun _ _ _ _ _ _ _ _ => trivial
    members := fun _ _ _ _ _ _ _ _ _ => trivial }
  exact keeps.cancel trivial (fun _ => rfl) d

/-- A request to cancel never settles the cell of a task. -/
theorem outcome?_cancel (c d : CellId) (l : Loop φ ρ κ) :
    (l.cancel c).2.outcome? d = l.outcome? d ∨
      ((l.cancel c).2.outcome? d = some (.error .cancelled) ∧
        ∀ t, l.kind? d ≠ some (.task t)) := by
  have keeps : CancelKeeps (fun l' : Loop φ ρ κ => (∀ d, l'.kind? d = l.kind? d) ∧
      (l'.outcome? d = l.outcome? d ∨
        (l'.outcome? d = some (.error .cancelled) ∧ ∀ t, l.kind? d ≠ some (.task t))))
      (fun _ => True) (fun _ => True) := {
    settle := fun l' e found _ ⟨kinds, before⟩ hf other => by
      refine ⟨fun d => (kind?_settle e d _ l').trans (kinds d), ?_⟩
      rcases outcome?_settle e d (.error .cancelled) l' with same | ⟨rfl, -, after⟩
      · rwa [same]
      · refine .inr ⟨after, fun t same => ?_⟩
        rw [← kinds d, kind?, hf] at same
        have kind : found.source.kind = .task t := Option.some.inj same
        cases source : found.source with
        | task u => exact other u source
        | plain => rw [source] at kind; cases kind
        | group => rw [source] at kind; cases kind
        | countdown => rw [source] at kind; cases kind
    mark := fun _ _ _ _ _ _ h => h
    group := fun l' e source before cell _ ⟨old, _⟩ found same _ ⟨kinds, outcome⟩ => by
      refine ⟨fun d => (kind?_setSource (fun k hk => ?_) d).trans (kinds d), ?_⟩
      · rw [kinds e, ← old e, kind?, found] at hk
        exact same.trans (Option.some.inj hk)
      · rwa [outcome?_setSource]
    owner := fun _ _ _ _ _ _ _ => trivial
    waits := fun _ _ _ _ _ _ _ _ => trivial
    members := fun _ _ _ _ _ _ _ _ _ => trivial }
  exact (keeps.cancel (c := c) trivial ⟨fun _ => rfl, .inl rfl⟩).2

theorem kind?_watches (members : List CellId) (c d : CellId) (l : Loop φ ρ κ) :
    (members.foldl (fun l m => l.watch m (.member c)) l).kind? d = l.kind? d := by
  induction members generalizing l with
  | nil => rfl
  | cons m rest ih => exact (ih _).trans (kind?_watch m d _ l)

theorem kind?_gather (members : List CellId) (ok : ρ) (l : Loop φ ρ κ) :
    (l.gather members ok).2.kind? l.cells.length = some (.group members 0 false) := by
  have counted (ms : List CellId) (l' : Loop φ ρ κ) (c d : CellId) :
      (ms.foldl (fun l _ => l.countDown c ok) l').kind? d = l'.kind? d := by
    induction ms generalizing l' with
    | nil => rfl
    | cons m ms ih => exact (ih _).trans (kind?_countDown c d ok l')
  rw [gather]
  dsimp only
  rw [counted, kind?_watches, newCell]
  exact kind?_newCell_self (.group members members.length false) l

theorem kind?_countdown (members : List CellId) (l : Loop φ ρ κ) :
    (l.countdown members).2.kind? l.cells.length = some (.countdown 0) := by
  rw [countdown]
  dsimp only
  rw [kind?_watches, newCell]
  exact kind?_newCell_self (.countdown members.length) l

theorem outcome?_countdown_self (members : List CellId) (l : Loop φ ρ κ) :
    (l.countdown members).2.outcome? l.cells.length = none := by
  have watched (ms : List CellId) (l' : Loop φ ρ κ) (c d : CellId) :
      (ms.foldl (fun l m => l.watch m (.member c)) l').outcome? d = l'.outcome? d := by
    induction ms generalizing l' with
    | nil => rfl
    | cons m ms ih => exact (ih _).trans (outcome?_watch m d _ l')
  rw [countdown]
  dsimp only
  rw [watched, outcome?_newCell, outcome?, List.getElem?_eq_none (Nat.le_refl _)]
  rfl

variable {may : Outcome ρ → Prop} {reach : CellId → Prop} {guards : Prop} {begun : List φ}
variable {l l' : Loop φ ρ κ}

theorem Op.kind? (h : Op may reach guards l l') {c : CellId} (hc : c < l.cells.length) :
    l'.kind? c = l.kind? c := by
  cases h with
  | newCell => exact kind?_newCell hc
  | settle => exact kind?_settle _ c _ l
  | watch => exact kind?_watch _ c _ l
  | push => rfl
  | mark => rfl
  | countDown => exact kind?_countDown _ c _ l
  | cancel => exact kind?_cancel _ c l
  | clock => rfl

theorem Ops.kind? (h : Ops may reach guards begun l l') {c : CellId} (hc : c < l.cells.length) :
    l'.kind? c = l.kind? c := by
  induction h with
  | refl => rfl
  | tail before step ih =>
    exact (step.kind? (Nat.lt_of_lt_of_le hc before.length_cells)).trans (ih hc)
  | @spawn _ _ l' before f ih =>
    have same : (l'.spawn f).2.kind? c = l'.kind? c :=
      kind?_newCell (Nat.lt_of_lt_of_le hc before.length_cells)
    exact same.trans (ih hc)

theorem lt_of_kind? {c : CellId} {k : Source} {l : Loop φ ρ κ} (h : l.kind? c = some k) :
    c < l.cells.length := by
  obtain ⟨cell, found, -⟩ := Option.map_eq_some_iff.1 h
  exact (List.getElem?_eq_some_iff.1 found).1

/-- A new cell is for cells in `reach`, if for any. -/
theorem Op.members (h : Op may reach guards l l') {c : CellId} {k : Source} (new : l.cells.length ≤ c)
    (found : l'.kind? c = some k) : ∀ m ∈ k.members, reach m := by
  have never {p : Prop} (old : l.kind? c = some k) : p :=
    absurd (lt_of_kind? old) (Nat.not_lt.2 new)
  cases h with
  | newCell source inside =>
    have last : c < l.cells.length + 1 := by
      have there := lt_of_kind? found
      rwa [Loop.newCell, List.length_append] at there
    obtain rfl : c = l.cells.length := Nat.le_antisymm (Nat.le_of_lt_succ last) new
    rw [kind?_newCell_self] at found
    cases found
    rw [Source.members_kind]
    exact inside
  | settle d o => exact never (kind?_settle d c o l ▸ found)
  | watch d waker => exact never (kind?_watch d c waker l ▸ found)
  | push | mark | clock => exact never found
  | countDown d ok => exact never (kind?_countDown d c ok l ▸ found)
  | cancel d => exact never (kind?_cancel d c l ▸ found)

theorem Ops.members (h : Ops may reach guards begun l l') {c : CellId} {k : Source}
    (new : l.cells.length ≤ c) (found : l'.kind? c = some k) : ∀ m ∈ k.members, reach m := by
  induction h with
  | refl => exact absurd (lt_of_kind? found) (Nat.not_lt.2 new)
  | @tail _ _ l₁ _ before step ih =>
    by_cases old : c < l₁.cells.length
    · exact ih new (step.kind? old ▸ found)
    · exact step.members (Nat.le_of_not_lt old) found
  | @spawn _ _ l₁ before f ih =>
    have found : (l₁.newCell (.task l₁.tasks.length)).2.kind? c = some k := found
    by_cases old : c < l₁.cells.length
    · exact ih new (kind?_newCell old ▸ found)
    · have made : Op may reach guards l₁ (l₁.newCell (.task l₁.tasks.length)).2 :=
        .newCell l₁ _ (fun _ hm => nomatch hm) rfl
      exact made.members (Nat.le_of_not_lt old) found

/-- Nobody comes to wait, or ceases to, by operations alone. -/
theorem Ops.waits (h : Ops may reach guards begun l l') (t : TaskId) : l'.waits t = l.waits t := by
  induction h with
  | refl => rfl
  | tail _ step ih => exact (waits_of_places step.places t).trans ih
  | @spawn _ _ l' _ f ih => exact (Orderly.waits_spawn f t l').trans ih

/-- A request to cancel a cell in `reach` comes to tasks that are `marked` only. -/
structure Shield (l : Loop φ ρ κ) (reach : CellId → Prop) (marked : TaskId → Prop) : Prop where
  inside : ∀ c, reach c → c < l.cells.length
  owner : ∀ c t, reach c → l.kind? c = some (.task t) → marked t
  members : ∀ c k, reach c → l.kind? c = some k → ∀ m ∈ k.members, reach m
  waits : ∀ t c, marked t → l.waits t = some c → reach c

namespace Shield

variable {marked : TaskId → Prop}

theorem keep (h : l.Shield reach marked) (longer : l.cells.length ≤ l'.cells.length)
    (kinds : ∀ c, c < l.cells.length → l'.kind? c = l.kind? c)
    (waits : ∀ t, l'.waits t = l.waits t) : l'.Shield reach marked where
  inside c hc := Nat.lt_of_lt_of_le (h.inside c hc) longer
  owner c t hc ht := h.owner c t hc (kinds c (h.inside c hc) ▸ ht)
  members c k hc hk := h.members c k hc (kinds c (h.inside c hc) ▸ hk)
  waits t c ht hc := h.waits t c ht (waits t ▸ hc)

theorem op (h : l.Shield reach marked) (step : Op may reach guards l l') :
    l'.Shield reach marked :=
  h.keep step.length_cells (fun _ hc => step.kind? hc) (waits_of_places step.places)

theorem ops (h : l.Shield reach marked) (steps : Ops may reach guards begun l l') :
    l'.Shield reach marked := by
  induction steps with
  | refl => exact h
  | tail _ step ih => exact (ih h).op step
  | @spawn _ _ l' _ f ih =>
    refine (ih h).keep ?_ (fun c hc => ?_) (Orderly.waits_spawn f · l')
    · exact Nat.le_of_lt (by simp [spawn, length_cells_newCell])
    · exact kind?_newCell hc

end Shield

end Loop
end LanguageClient.Schedule
