import LanguageClient.Proofs.Schedule.Holds

/-!
Operations that are about one cell: they settle no other cell and make nothing release another one.
Waiting for several cells, and timers, are made of them.
-/

namespace LanguageClient.Schedule

variable {φ ρ κ : Type}

namespace Loop

/-- Operations that change no outcome but that of one cell, and hold no other cell. -/
structure Around (may : Outcome ρ → Prop) (reach : CellId → Prop) (guards : Prop) (c : CellId)
    (l l' : Loop φ ρ κ) : Prop where
  ops : Ops may reach guards [] l l'
  outcome : ∀ d, d ≠ c → l'.outcome? d = l.outcome? d
  holds : ∀ d, l'.Holds d → l.Holds d ∨ d = c

namespace Around

variable {may : Outcome ρ → Prop} {reach : CellId → Prop} {guards : Prop} {c : CellId}
variable {l l' l'' : Loop φ ρ κ}

theorem refl (c : CellId) (l : Loop φ ρ κ) : Around may reach guards c l l where
  ops := .refl l
  outcome _ _ := rfl
  holds _ h := .inl h

theorem trans (h : Around may reach guards c l l') (h' : Around may reach guards c l' l'') :
    Around may reach guards c l l'' where
  ops := h.ops.trans h'.ops
  outcome d hd := (h'.outcome d hd).trans (h.outcome d hd)
  holds d hd := by
    rcases h'.holds d hd with old | same
    · exact h.holds d old
    · exact .inr same

theorem foldl {α : Type} {f : Loop φ ρ κ → α → Loop φ ρ κ} {xs : List α}
    (h : ∀ x ∈ xs, ∀ l, Around may reach guards c l (f l x)) (l : Loop φ ρ κ) :
    Around may reach guards c l (xs.foldl f l) := by
  induction xs generalizing l with
  | nil => exact refl c l
  | cons x xs ih =>
    obtain ⟨first, others⟩ := List.forall_mem_cons.1 h
    exact (first l).trans (ih others _)

theorem newCell {source : Source} (h : ∀ m ∈ source.members, reach m)
    (h' : source.givenUp = false) (c : CellId) (l : Loop φ ρ κ) :
    Around may reach guards c l (l.newCell source).2 where
  ops := .single (.newCell l source h h')
  outcome d _ := outcome?_newCell source d l
  holds _ hd := .inl hd.newCell

theorem watch (d : CellId) {waker : Waker κ} (h : waker.isTask = false)
    (same : ∀ e, waker.released? = some e → e = c) (l : Loop φ ρ κ) :
    Around may reach guards c l (l.watch d waker) where
  ops := .single (.watch l d waker h)
  outcome e _ := outcome?_watch d e waker l
  holds e he := he.watch.imp_right (same e)

theorem watch_member (d c : CellId) (l : Loop φ ρ κ) :
    Around may reach guards c l (l.watch d (.member c)) := by
  refine watch d rfl ?_ l
  intro e he
  exact (Option.some.inj he).symm

theorem push {job : Job κ} (h : job.isResume = false) (h' : job.released? = none) (c : CellId)
    (l : Loop φ ρ κ) : Around may reach guards c l (l.push job) where
  ops := .single (.push l job h)
  outcome _ _ := rfl
  holds d hd := by
    rcases hd.push with old | new
    · exact .inl old
    · rw [h'] at new
      cases new

theorem settle {o : Outcome ρ} (h : may o) (h' : o ≠ .error .cancelled) (c : CellId)
    (l : Loop φ ρ κ) : Around may reach guards c l (l.settle c o) where
  ops := .single (.settle l c o h h')
  outcome _ hd := outcome?_settle_ne hd o l
  holds _ hd := .inl hd.settle

theorem countDown {ok : ρ} (h : may (.ok ok)) (h' : may (.error .cancelled)) (c : CellId)
    (l : Loop φ ρ κ) : Around may reach guards c l (l.countDown c ok) where
  ops := .single (.countDown l c ok h h')
  outcome d hd := by
    have marked (source : Source) : (l.setSource c source).outcome? d = l.outcome? d :=
      outcome?_setSource c d source l
    unfold Loop.countDown
    dsimp only
    split
    · split
      · exact marked _
      · exact (outcome?_settle_ne hd _ _).trans (marked _)
    · split
      · exact marked _
      · exact (outcome?_settle_ne hd _ _).trans (marked _)
    · rfl
  holds _ hd := .inl hd.countDown

/-- Only the clock and the timers change, and these release no other cell. -/
theorem clock {timers : List Timer}
    (h : ∀ timer ∈ timers, ∀ d, timer.alarm = .release d → timer ∈ l.timers ∨ d = c) (now : Time)
    {next : TimerId} {expired : List TimerId} (later : l.nextTimer ≤ next)
    (numbered : Numbered l.timers l.nextTimer → Numbered timers next)
    (still : guards ∨ (alarms timers = alarms l.timers ∧ expired = l.expired)) :
    Around may reach guards c l
      { l with now := now, timers := timers, nextTimer := next, expired := expired } where
  ops := .single (.clock l now timers next expired later numbered still)
  outcome _ _ := rfl
  holds d hd := by
    cases hd with
    | alarm timer member releases =>
      exact (h timer member d releases).imp_left fun old => .alarm timer old releases
    | waker e cell waker found member same => exact .inl (.waker e cell waker found member same)
    | job job member same => exact .inl (.job job member same)

/-- Time passes. -/
theorem later (now : Time) (c : CellId) (l : Loop φ ρ κ) :
    Around may reach guards c l { l with now := now } :=
  clock (fun _ member _ _ => .inl member) now (Nat.le_refl _) id (.inr ⟨rfl, rfl⟩)

/-- Timers are noted that have gone off, or are noted no more. -/
theorem expire (guarding : guards) (expired : List TimerId) (c : CellId) (l : Loop φ ρ κ) :
    Around may reach guards c l { l with expired := expired } :=
  clock (fun _ member _ _ => .inl member) l.now (Nat.le_refl _) id (.inl guarding)

theorem setTimer (span : Int) {alarm : Alarm} (h : ∀ d, alarm = .release d → d = c)
    (guarded : guards ∨ ∃ d, alarm = .release d) (l : Loop φ ρ κ) :
    Around may reach guards c l (l.setTimer span alarm).2 := by
  have added : Around may reach guards c l
      { l with timers := l.timers ++ [⟨l.nextTimer, l.now + span.toNat, alarm⟩],
               nextTimer := l.nextTimer + 1 } := by
    refine clock ?_ l.now (Nat.le_succ _) ?_ (guarded.imp_right ?_)
    · intro timer member d releases
      rcases List.mem_append.1 member with old | new
      · exact .inl old
      · rw [List.mem_singleton.1 new] at releases
        exact .inr (h d releases)
    · rintro ⟨once, below⟩
      refine ⟨?_, fun timer member => ?_⟩
      · rw [List.map_append, List.nodup_append]
        refine ⟨once, List.pairwise_singleton _ _, ?_⟩
        rintro id old id' new rfl
        obtain ⟨timer, member, rfl⟩ := List.mem_map.1 old
        exact absurd (List.mem_singleton.1 new) (Nat.ne_of_lt (below timer member))
      · rcases List.mem_append.1 member with old | new
        · exact Nat.lt_succ_of_lt (below timer old)
        · rw [List.mem_singleton.1 new]
          exact Nat.lt_succ_self _
    · rintro ⟨d, rfl⟩
      exact ⟨by simp [alarms], rfl⟩
  unfold Loop.setTimer
  dsimp only
  split
  · exact added.trans (push rfl rfl c _)
  · exact added

theorem stopTimer (id : TimerId) (guarding : guards) (c : CellId) (l : Loop φ ρ κ) :
    Around may reach guards c l (l.stopTimer id) := by
  refine clock (fun _ member _ _ => .inl (List.mem_filter.1 member).1) l.now (Nat.le_refl _) ?_
    (.inl guarding)
  rintro ⟨once, below⟩
  exact ⟨once.sublist (List.filter_sublist.map _),
    fun timer member => below timer (List.mem_filter.1 member).1⟩

theorem gather {members : List CellId} {ok : ρ} (h : may (.ok ok)) (h' : may (.error .cancelled))
    (hm : ∀ m ∈ members, reach m) (l : Loop φ ρ κ) :
    Around may reach guards l.cells.length l (l.gather members ok).2 := by
  have made : Around may reach guards l.cells.length l
      (l.newCell (.group members members.length false)).2 := by
    refine newCell ?_ rfl _ l
    exact hm
  exact (made.trans (foldl (fun m _ l' => watch_member m _ l') _)).trans
    (foldl (fun _ _ l' => countDown h h' _ l') _)

theorem countdown (members : List CellId) (l : Loop φ ρ κ) :
    Around may reach guards l.cells.length l (l.countdown members).2 := by
  have made : Around may reach guards l.cells.length l
      (l.newCell (.countdown members.length)).2 := newCell (fun _ hm => nomatch hm) rfl _ l
  exact made.trans (foldl (fun m _ l' => watch_member m _ l') _)

end Around

theorem length_cells_newCell (source : Source) (l : Loop φ ρ κ) :
    (l.newCell source).2.cells.length = l.cells.length + 1 := by
  simp [newCell]

theorem cells_setTimer (span : Int) (alarm : Alarm) (l : Loop φ ρ κ) :
    (l.setTimer span alarm).2.cells = l.cells := by
  unfold setTimer
  dsimp only
  split <;> rfl

theorem outcome?_setTimer (c : CellId) (span : Int) (alarm : Alarm) (l : Loop φ ρ κ) :
    (l.setTimer span alarm).2.outcome? c = l.outcome? c := by
  rw [outcome?, outcome?, cells_setTimer]

theorem length_cells_foldl {α : Type} {f : Loop φ ρ κ → α → Loop φ ρ κ}
    (h : ∀ l x, (f l x).cells.length = l.cells.length) (xs : List α) (l : Loop φ ρ κ) :
    (xs.foldl f l).cells.length = l.cells.length := by
  induction xs generalizing l with
  | nil => rfl
  | cons x xs ih => exact (ih _).trans (h l x)

theorem length_cells_gather (members : List CellId) (ok : ρ) (l : Loop φ ρ κ) :
    (l.gather members ok).2.cells.length = l.cells.length + 1 := by
  unfold gather
  dsimp only
  rw [length_cells_foldl fun l' _ => length_cells_countDown _ ok l',
    length_cells_foldl fun l' m => length_cells_watch m _ l', length_cells_newCell]

theorem length_cells_countdown (members : List CellId) (l : Loop φ ρ κ) :
    (l.countdown members).2.cells.length = l.cells.length + 1 := by
  unfold countdown
  dsimp only
  rw [length_cells_foldl fun l' m => length_cells_watch m _ l', length_cells_newCell]

end Loop
end LanguageClient.Schedule
