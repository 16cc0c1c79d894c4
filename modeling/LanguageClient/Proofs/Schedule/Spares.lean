import LanguageClient.Proofs.Schedule.Kind

/-!
What operations leave alone that guard no task: the tasks and the groups that no request to cancel
can reach, and the timers that cancel tasks.
-/

namespace LanguageClient.Schedule.Loop

variable {φ ρ κ : Type}

/-- Whether a group has been asked to give its members up. -/
def givenUp (c : CellId) (l : Loop φ ρ κ) : Bool :=
  match l.cells[c]? with
  | some cell => cell.source.givenUp
  | none => false

theorem givenUp_of_cells {l l' : Loop φ ρ κ} (h : l'.cells = l.cells) (c : CellId) :
    l'.givenUp c = l.givenUp c := by
  rw [givenUp, givenUp, h]

theorem givenUp_settle (c d : CellId) (o : Outcome ρ) (l : Loop φ ρ κ) :
    (l.settle c o).givenUp d = l.givenUp d := by
  unfold settle
  split
  · next found =>
    have hc : c < l.cells.length := (List.getElem?_eq_some_iff.1 found).1
    by_cases same : c = d
    · subst same
      rw [givenUp, givenUp, found, List.getElem?_set_self hc]
    · simp [givenUp, List.getElem?_set_ne same]
  · rfl

theorem givenUp_watch (c d : CellId) (waker : Waker κ) (l : Loop φ ρ κ) :
    (l.watch c waker).givenUp d = l.givenUp d := by
  unfold watch
  split
  · next found =>
    have hc : c < l.cells.length := (List.getElem?_eq_some_iff.1 found).1
    by_cases same : c = d
    · subst same
      rw [givenUp, givenUp, found, List.getElem?_set_self hc]
    · simp [givenUp, List.getElem?_set_ne same]
  · rfl

theorem givenUp_setSource_ne {c d : CellId} (h : d ≠ c) (source : Source) (l : Loop φ ρ κ) :
    (l.setSource c source).givenUp d = l.givenUp d := by
  simp [givenUp, setSource, Ne.symm h]

/-- A source changes that is as much given up as before. -/
theorem givenUp_setSource {c : CellId} {source : Source} {cell : Cell ρ κ} {l : Loop φ ρ κ}
    (found : l.cells[c]? = some cell) (same : source.givenUp = cell.source.givenUp) (d : CellId) :
    (l.setSource c source).givenUp d = l.givenUp d := by
  by_cases other : d = c
  · subst other
    simp [givenUp, setSource, found, same]
  · exact givenUp_setSource_ne other source l

theorem givenUp_newCell {source : Source} (h : source.givenUp = false) (c : CellId)
    (l : Loop φ ρ κ) : (l.newCell source).2.givenUp c = l.givenUp c := by
  simp only [givenUp, newCell]
  by_cases hc : c < l.cells.length
  · rw [List.getElem?_append_left hc]
  · rw [List.getElem?_append_right (Nat.le_of_not_lt hc), List.getElem?_eq_none (Nat.le_of_not_lt hc)]
    cases c - l.cells.length with
    | zero => exact h
    | succ n => rfl

/-- Counting down settles a cell well, or gives up a group that has been asked to. -/
theorem countDown_spares (c : CellId) (ok : ρ) (l : Loop φ ρ κ) :
    (∀ d, (l.countDown c ok).givenUp d = l.givenUp d) ∧
      ∀ d, l.outcome? d = none → (l.countDown c ok).outcome? d = some (.error .cancelled) →
        l.givenUp d = true := by
  have settled (d : CellId) (source : Source) (o : Outcome ρ) (before : l.outcome? d = none)
      (after : ((l.setSource c source).settle c o).outcome? d = some (.error .cancelled)) :
      d = c ∧ o = .error .cancelled := by
    rcases outcome?_settle c d o (l.setSource c source) with same | ⟨here, -, known⟩
    · rw [same, outcome?_setSource, before] at after
      cases after
    · rw [known] at after
      exact ⟨here, Option.some.inj after⟩
  have unsettled (d : CellId) (source : Source) (before : l.outcome? d = none)
      (after : (l.setSource c source).outcome? d = some (.error .cancelled)) : False := by
    rw [outcome?_setSource, before] at after
    cases after
  unfold countDown
  dsimp only
  split
  · next members left cancelled wakers found =>
    have kept (d : CellId) : (l.setSource c (.group members (left - 1) cancelled)).givenUp d =
        l.givenUp d := givenUp_setSource found (by rfl) d
    split
    · exact ⟨kept, fun d before after => (unsettled d _ before after).elim⟩
    · refine ⟨fun d => (givenUp_settle c d _ _).trans (kept d), fun d before after => ?_⟩
      obtain ⟨rfl, same⟩ := settled d _ _ before after
      rw [givenUp, found]
      cases cancelled with
      | true => rfl
      | false => cases same
  · next left wakers found =>
    have kept (d : CellId) : (l.setSource c (.countdown (left - 1))).givenUp d = l.givenUp d :=
      givenUp_setSource found (by rfl) d
    split
    · exact ⟨kept, fun d before after => (unsettled d _ before after).elim⟩
    · refine ⟨fun d => (givenUp_settle c d _ _).trans (kept d), fun d before after => ?_⟩
      cases (settled d _ _ before after).2
  · refine ⟨fun _ => rfl, fun d before after => ?_⟩
    rw [before] at after
    cases after

/-- Only a group can have been asked to give its members up. -/
theorem kind?_of_givenUp {c : CellId} {l : Loop φ ρ κ} (h : l.givenUp c = true) (t : TaskId) :
    l.kind? c ≠ some (.task t) := by
  intro same
  unfold givenUp at h
  unfold kind? at same
  cases found : l.cells[c]? with
  | none =>
    rw [found] at h
    cases h
  | some cell =>
    rw [found] at h same
    have kind : cell.source.kind = .task t := Option.some.inj same
    have given : cell.source.givenUp = true := h
    cases source : cell.source with
    | group => rw [source] at kind; cases kind
    | plain => rw [source] at given; cases given
    | task => rw [source] at given; cases given
    | countdown => rw [source] at given; cases given

theorem outcome?_countDown {c : CellId} {ok : ρ} {l : Loop φ ρ κ} {o : Outcome ρ}
    (before : l.outcome? c = none) (after : (l.countDown c ok).outcome? c = some o) :
    o = .ok ok ∨ (o = .error .cancelled ∧ ∀ t, l.kind? c ≠ some (.task t)) := by
  have settles : Settles (fun o => o = .ok ok ∨ o = .error .cancelled) l (l.countDown c ok) :=
    .countDown (.inl rfl) (.inr rfl) c l
  rcases settles c with same | ⟨-, o', known, good⟩
  · rw [same, before] at after
    cases after
  · rw [after] at known
    cases known
    rcases good with good | rfl
    · exact .inl good
    · exact .inr ⟨rfl, kind?_of_givenUp ((countDown_spares c ok l).2 c before after)⟩

/-- A cell for several others comes to a good end, if nobody has given it up. -/
theorem outcome?_gather {members : List CellId} {ok : ρ} {l : Loop φ ρ κ} {o : Outcome ρ}
    (h : (l.gather members ok).2.outcome? l.cells.length = some o) : o = .ok ok := by
  let c := l.cells.length
  let Good (l' : Loop φ ρ κ) : Prop :=
    l'.givenUp c = false ∧ (l'.outcome? c = none ∨ l'.outcome? c = some (.ok ok))
  have counted (l' : Loop φ ρ κ) (good : Good l') : Good (l'.countDown c ok) := by
    obtain ⟨kept, cancelled⟩ := countDown_spares c ok l'
    refine ⟨(kept c).trans good.1, ?_⟩
    rcases good.2 with before | before
    · cases after : (l'.countDown c ok).outcome? c with
      | none => exact .inl rfl
      | some o' =>
        rcases outcome?_countDown before after with rfl | ⟨rfl, -⟩
        · exact .inr rfl
        · have given := cancelled c before after
          rw [good.1] at given
          cases given
    · have settles : Settles (fun _ => True) l' (l'.countDown c ok) :=
        .countDown trivial trivial c l'
      exact .inr (settles.outcome before)
  have watched (l' : Loop φ ρ κ) (m : CellId) (good : Good l') : Good (l'.watch m (.member c)) :=
    ⟨(givenUp_watch m c _ l').trans good.1, (outcome?_watch m c (.member c) l') ▸ good.2⟩
  have fold {α : Type} {f : Loop φ ρ κ → α → Loop φ ρ κ} (h : ∀ l' x, Good l' → Good (f l' x))
      (xs : List α) (l' : Loop φ ρ κ) (good : Good l') : Good (xs.foldl f l') := by
    induction xs generalizing l' with
    | nil => exact good
    | cons x xs ih => exact ih _ (h l' x good)
  have made : Good (l.newCell (.group members members.length false)).2 := by
    refine ⟨?_, .inl ?_⟩
    · simp [givenUp, newCell, Source.givenUp, c]
    · rw [outcome?_newCell, outcome?, List.getElem?_eq_none (Nat.le_refl _)]
      rfl
  have good : Good (l.gather members ok).2 :=
    fold (fun l' _ => counted l') _ _ (fold (fun l' m => watched l' m) _ _ made)
  rcases good.2 with none | done
  · rw [none] at h
    cases h
  · rw [h] at done
    exact Option.some.inj done

theorem clock_settle (c : CellId) (o : Outcome ρ) (l : Loop φ ρ κ) :
    (l.settle c o).timers = l.timers ∧ (l.settle c o).nextTimer = l.nextTimer ∧
      (l.settle c o).expired = l.expired := by
  unfold Loop.settle
  split <;> exact ⟨rfl, rfl, rfl⟩

/-- What is left alone out of reach: tasks that are not marked, and cells. -/
structure Leaves (reach : CellId → Prop) (marked : TaskId → Prop) (l l' : Loop φ ρ κ) : Prop where
  task : ∀ t, t < l.tasks.length → ¬ marked t → l'.tasks[t]? = l.tasks[t]?
  fresh : ∀ t task, l.tasks.length ≤ t → ¬ marked t → l'.tasks[t]? = some task → task.cancelDue = false
  cancelled : ∀ c, l.outcome? c = none → l'.outcome? c = some (.error .cancelled) →
    reach c ∨ l.givenUp c = true
  givenUp : ∀ c, ¬ reach c → l'.givenUp c = l.givenUp c
  tasks : l.tasks.length ≤ l'.tasks.length

/-- Timers that cancel tasks are left alone as well. -/
structure Spares (reach : CellId → Prop) (marked : TaskId → Prop) (l l' : Loop φ ρ κ) : Prop
    extends Leaves reach marked l l' where
  later : l.nextTimer ≤ l'.nextTimer
  numbered : Numbered l.timers l.nextTimer → Numbered l'.timers l'.nextTimer
  alarms : alarms l'.timers = alarms l.timers
  expired : l'.expired = l.expired

namespace Leaves

variable {p : Outcome ρ → Prop} {reach reach' : CellId → Prop} {marked marked' : TaskId → Prop}
variable {l l' l'' : Loop φ ρ κ}

theorem refl (l : Loop φ ρ κ) : Leaves reach marked l l where
  task _ _ _ := rfl
  fresh t task new _ found := by
    rw [List.getElem?_eq_none new] at found
    cases found
  cancelled c before after := by
    rw [before] at after
    cases after
  givenUp _ _ := rfl
  tasks := Nat.le_refl _

theorem trans (h : Leaves reach marked l l') (h' : Leaves reach marked l' l'')
    (settles : Settles p l' l'') : Leaves reach marked l l'' where
  task t ht unmarked :=
    (h'.task t (Nat.lt_of_lt_of_le ht h.tasks) unmarked).trans (h.task t ht unmarked)
  fresh t task new unmarked found := by
    by_cases old : t < l'.tasks.length
    · exact h.fresh t task new unmarked ((h'.task t old unmarked) ▸ found)
    · exact h'.fresh t task (Nat.le_of_not_lt old) unmarked found
  cancelled c before after := by
    cases known : l'.outcome? c with
    | none =>
      by_cases near : reach c
      · exact .inl near
      · exact h.givenUp c near ▸ h'.cancelled c known after
    | some o =>
      have same := settles.outcome known
      rw [after] at same
      exact h.cancelled c before (known.trans same.symm)
  givenUp c far := (h'.givenUp c far).trans (h.givenUp c far)
  tasks := Nat.le_trans h.tasks h'.tasks

theorem mono (h : Leaves reach marked l l') (reaches : ∀ c, reach c → reach' c)
    (marks : ∀ t, marked t → marked' t) : Leaves reach' marked' l l' where
  task t ht unmarked := h.task t ht fun m => unmarked (marks t m)
  fresh t task new unmarked := h.fresh t task new fun m => unmarked (marks t m)
  cancelled c before after := (h.cancelled c before after).imp_left (reaches c)
  givenUp c far := h.givenUp c fun near => far (reaches c near)
  tasks := h.tasks

/-- A change that is not about groups or tasks but marked ones, and cancels nothing. -/
theorem of_same (task : ∀ t, ¬ marked t → l'.tasks[t]? = l.tasks[t]?)
    (cancelled : ∀ c, l.outcome? c = none → l'.outcome? c ≠ some (.error .cancelled))
    (givenUp : ∀ c, l'.givenUp c = l.givenUp c) (tasks : l'.tasks.length = l.tasks.length) :
    Leaves reach marked l l' where
  task t _ unmarked := task t unmarked
  fresh t _ new _ found := by
    rw [List.getElem?_eq_none (tasks ▸ new)] at found
    cases found
  cancelled c before after := absurd after (cancelled c before)
  givenUp c _ := givenUp c
  tasks := Nat.le_of_eq tasks.symm

/-- A change that is neither about tasks nor about cells. -/
theorem of_eq (tasks : l'.tasks = l.tasks) (cells : l'.cells = l.cells) :
    Leaves reach marked l l' := by
  refine of_same (fun _ _ => by rw [tasks]) (fun c before after => ?_)
    (givenUp_of_cells cells) (by rw [tasks])
  rw [outcome?, cells, ← outcome?, before] at after
  cases after

end Leaves

namespace Spares

variable {p : Outcome ρ → Prop} {reach reach' : CellId → Prop} {marked marked' : TaskId → Prop}
variable {guards : Prop} {begun : List φ} {l l' l'' : Loop φ ρ κ}

theorem refl (l : Loop φ ρ κ) : Spares reach marked l l := ⟨.refl l, Nat.le_refl _, id, rfl, rfl⟩

theorem trans (h : Spares reach marked l l') (h' : Spares reach marked l' l'')
    (settles : Settles p l' l'') : Spares reach marked l l'' where
  toLeaves := h.toLeaves.trans h'.toLeaves settles
  later := Nat.le_trans h.later h'.later
  numbered := h'.numbered ∘ h.numbered
  alarms := h'.alarms.trans h.alarms
  expired := h'.expired.trans h.expired

theorem mono (h : Spares reach marked l l') (reaches : ∀ c, reach c → reach' c)
    (marks : ∀ t, marked t → marked' t) : Spares reach' marked' l l' where
  toLeaves := h.toLeaves.mono reaches marks
  later := h.later
  numbered := h.numbered
  alarms := h.alarms
  expired := h.expired

/-- A change that is not about timers. -/
theorem of_leaves (h : Leaves reach marked l l') (timers : l'.timers = l.timers)
    (next : l'.nextTimer = l.nextTimer) (expired : l'.expired = l.expired) :
    Spares reach marked l l' where
  toLeaves := h
  later := Nat.le_of_eq next.symm
  numbered known := by rwa [timers, next]
  alarms := congrArg _ timers
  expired := expired

theorem settle {c : CellId} {o : Outcome ρ} (h : o = .error .cancelled → reach c) (l : Loop φ ρ κ) :
    Spares reach marked l (l.settle c o) := by
  refine of_leaves ⟨fun t _ _ => by rw [tasks_settle], fun t task new _ found => ?_,
    fun d before after => ?_, fun d _ => givenUp_settle c d o l, Nat.le_of_eq (by rw [tasks_settle])⟩
    (clock_settle c o l).1 (clock_settle c o l).2.1 (clock_settle c o l).2.2
  · rw [tasks_settle, List.getElem?_eq_none new] at found
    cases found
  · rcases outcome?_settle c d o l with same | ⟨rfl, -, settled⟩
    · rw [same, before] at after
      cases after
    · rw [settled] at after
      exact .inl (h (Option.some.inj after))

theorem watch (c : CellId) (waker : Waker κ) (l : Loop φ ρ κ) :
    Spares reach marked l (l.watch c waker) := by
  refine of_leaves (.of_same (fun t _ => by rw [tasks_watch]) (fun d before after => ?_)
    (fun d => givenUp_watch c d waker l) (by rw [tasks_watch])) ?_ ?_ ?_
  · rw [outcome?_watch, before] at after
    cases after
  all_goals
    unfold Loop.watch
    split <;> rfl

theorem newCell {source : Source} (h : source.givenUp = false) (l : Loop φ ρ κ) :
    Spares reach marked l (l.newCell source).2 := by
  refine of_leaves (.of_same (fun _ _ => rfl) (fun d before after => ?_)
    (fun d => givenUp_newCell h d l) rfl) rfl rfl rfl
  rw [outcome?_newCell, before] at after
  cases after

theorem push (job : Job κ) (l : Loop φ ρ κ) : Spares reach marked l (l.push job) :=
  of_leaves (.of_eq rfl rfl) rfl rfl rfl

/-- A marked task changes. -/
theorem setTask {t : TaskId} (h : marked t) (f : TaskState φ → TaskState φ) (l : Loop φ ρ κ) :
    Spares reach marked l (l.setTask t f) := by
  refine of_leaves (.of_same (fun u unmarked => ?_) (fun d before after => ?_) (fun _ => rfl)
    (length_tasks_setTask t f l)) rfl rfl rfl
  · have other : t ≠ u := by
      rintro rfl
      exact unmarked h
    simp [Loop.setTask, other]
  · have same : (l.setTask t f).outcome? d = l.outcome? d := rfl
    rw [same, before] at after
    cases after

theorem countDown (c : CellId) (ok : ρ) (l : Loop φ ρ κ) :
    Spares reach marked l (l.countDown c ok) := by
  obtain ⟨kept, cancelled⟩ := countDown_spares c ok l
  have timers : (l.countDown c ok).timers = l.timers ∧
      (l.countDown c ok).nextTimer = l.nextTimer ∧ (l.countDown c ok).expired = l.expired := by
    unfold Loop.countDown
    dsimp only
    repeat' split
    all_goals first | exact clock_settle c _ (l.setSource c _) | exact ⟨rfl, rfl, rfl⟩
  refine of_leaves ?_ timers.1 timers.2.1 timers.2.2
  exact {
    task := fun t _ _ => by rw [tasks_countDown]
    fresh := fun t task new _ found => by
      rw [tasks_countDown, List.getElem?_eq_none new] at found
      cases found
    cancelled := fun d before after => .inr (cancelled d before after)
    givenUp := fun d _ => kept d
    tasks := Nat.le_of_eq (by rw [tasks_countDown]) }

/-- A request to cancel comes to nothing out of reach. -/
theorem cancel (h : l.Shield reach marked) {c : CellId} (hc : reach c) :
    Spares reach marked l (l.cancel c).2 := by
  have keeps : CancelKeeps (fun l' : Loop φ ρ κ => (∀ d, l'.kind? d = l.kind? d) ∧
      (∀ u, l'.waits u = l.waits u) ∧ l'.tasks.length = l.tasks.length ∧ Spares reach marked l l')
      reach marked := {
    settle := fun l' e _ he ⟨kinds, waits, length, spares⟩ _ _ =>
      ⟨fun d => (kind?_settle e d _ l').trans (kinds d),
        fun u => (waits_of_places (places_of_tasks (tasks_settle e _ l')) u).trans (waits u), by
          rwa [tasks_settle], {
        task := fun t ht unmarked => by
          rw [tasks_settle]
          exact spares.task t ht unmarked
        fresh := fun t task new unmarked found => by
          rw [tasks_settle] at found
          exact spares.fresh t task new unmarked found
        cancelled := fun d before after => by
          rcases outcome?_settle e d (.error .cancelled) l' with same | ⟨rfl, -, -⟩
          · exact spares.cancelled d before (same ▸ after)
          · exact .inl he
        givenUp := fun d far => (givenUp_settle e d _ l').trans (spares.givenUp d far)
        tasks := by
          rw [tasks_settle]
          exact spares.tasks
        later := by
          rw [(clock_settle e _ l').2.1]
          exact spares.later
        numbered := by
          rw [(clock_settle e _ l').1, (clock_settle e _ l').2.1]
          exact spares.numbered
        alarms := by
          rw [(clock_settle e _ l').1]
          exact spares.alarms
        expired := by
          rw [(clock_settle e _ l').2.2]
          exact spares.expired }⟩
    mark := fun l' u f hu hf _ ⟨kinds, waits, length, spares⟩ => by
      refine ⟨kinds, fun v => (waits_of_places (places_setTask hf l') v).trans (waits v),
        (length_tasks_setTask u f l').trans length, ?_⟩
      have settles : Settles (fun _ => True) l' (l'.setTask u f) := .of_eq fun _ => rfl
      exact spares.trans (setTask hu f l') settles
    group := fun l' e source before cell he ⟨old, _⟩ found same _ ⟨kinds, waits, length, spares⟩ => by
      refine ⟨fun d => (kind?_setSource (fun k hk => ?_) d).trans (kinds d), waits, length, ?_⟩
      · rw [kinds e, ← old e, kind?, found] at hk
        exact same.trans (Option.some.inj hk)
      · refine ⟨⟨spares.task, spares.fresh, fun d before after => ?_, fun d far => ?_, spares.tasks⟩,
          spares.later, spares.numbered, spares.alarms, spares.expired⟩
        · rw [outcome?_setSource] at after
          exact spares.cancelled d before after
        · have other : d ≠ e := by
            rintro rfl
            exact far he
          exact (givenUp_setSource_ne other source l').trans (spares.givenUp d far)
    owner := fun l' e u wakers ⟨kinds, _⟩ he found => by
      refine h.owner e u he ?_
      rw [← kinds e, kind?, found]
      rfl
    waits := fun l' u task d ⟨_, waits, _⟩ found hd hu => by
      refine h.waits u d hu ?_
      rw [← waits u, waits_eq, found]
      exact hd
    members := fun l' e source wakers ⟨kinds, _⟩ he found => by
      have known : l.kind? e = some source.kind := by
        rw [← kinds e, kind?, found]
        rfl
      have inner := h.members e _ he known
      rwa [Source.members_kind] at inner }
  exact (keeps.cancel hc ⟨fun _ => rfl, fun _ => rfl, rfl, .refl l⟩).2.2.2

/-- A plain cell is given up, and nothing else. -/
theorem cancel_plain {c : CellId} (h : l.kind? c = some .plain) :
    Spares (· = c) marked l (l.cancel c).2 := by
  have shield : l.Shield (· = c) (fun _ => False) := {
    inside := fun d hd => by
      subst hd
      obtain ⟨cell, found, -⟩ := Option.map_eq_some_iff.1 h
      exact (List.getElem?_eq_some_iff.1 found).1
    owner := fun d t hd same => by
      rw [hd, h] at same
      cases same
    members := fun d k hd same => by
      rw [hd, h] at same
      cases same
      exact fun _ hm => nomatch hm
    waits := fun _ _ bad => bad.elim }
  exact (cancel shield rfl).mono (fun _ same => same) fun _ bad => bad.elim

/-- A task is given up that waits for a plain cell, if for any. -/
theorem cancelTask {t : TaskId} (own : l.kind? (l.taskCell t) = some (.task t))
    (plain : ∀ c, l.waits t = some c → l.kind? c = some .plain) :
    Spares (fun c => c = l.taskCell t ∨ l.waits t = some c) (· = t) l (l.cancelTask t) := by
  have inside {c : CellId} {k : Source} (h : l.kind? c = some k) : c < l.cells.length := by
    obtain ⟨cell, found, -⟩ := Option.map_eq_some_iff.1 h
    exact (List.getElem?_eq_some_iff.1 found).1
  refine cancel {
    inside := ?_
    owner := ?_
    members := ?_
    waits := ?_ } (.inl rfl)
  · rintro c (rfl | waits)
    · exact inside own
    · exact inside (plain c waits)
  · rintro c u (rfl | waits) same
    · rw [own] at same
      cases same
      rfl
    · rw [plain c waits] at same
      cases same
  · rintro c k (rfl | waits) same
    · rw [own] at same
      cases same
      exact fun _ hm => nomatch hm
    · rw [plain c waits] at same
      cases same
      exact fun _ hm => nomatch hm
  · rintro u c rfl waits
    exact .inr waits

theorem op (h : l.Shield reach marked) (calm : ¬ guards) (step : Op p reach guards l l') :
    Spares reach marked l l' := by
  cases step with
  | newCell source _ h' => exact newCell h' l
  | settle c o _ h' => exact settle (fun same => absurd same h') l
  | watch c waker => exact watch c waker l
  | push job => exact push job l
  | mark _ _ _ _ guarding => exact absurd guarding calm
  | countDown c ok => exact countDown c ok l
  | cancel c hc => exact cancel h hc
  | clock now timers next expired later numbered still =>
    obtain ⟨alarms, rfl⟩ := still.resolve_left calm
    exact ⟨.of_eq rfl rfl, later, numbered, alarms, rfl⟩

theorem spawn (f : φ) (l : Loop φ ρ κ) : Spares reach marked l (l.spawn f).2 := by
  have tasks : (l.spawn f).2.tasks = l.tasks ++ [⟨l.cells.length, [f], none, false, 0⟩] := rfl
  refine of_leaves ⟨fun t ht _ => ?_, fun t task new _ found => ?_, fun d before after => ?_,
    fun d _ => givenUp_newCell rfl d l, by simp [tasks]⟩ rfl rfl rfl
  · rw [tasks, List.getElem?_append_left ht]
  · rw [tasks, List.getElem?_append_right new] at found
    cases index : t - l.tasks.length with
    | zero =>
      rw [index] at found
      cases found
      rfl
    | succ n =>
      rw [index] at found
      cases found
  · have same : (l.spawn f).2.outcome? d = l.outcome? d := outcome?_newCell _ d l
    rw [same, before] at after
    cases after

theorem ops (h : l.Shield reach marked) (calm : ¬ guards) (steps : Ops p reach guards begun l l') :
    Spares reach marked l l' := by
  induction steps with
  | refl => exact refl _
  | tail before step ih =>
    exact (ih h).trans (op (h.ops before) calm step) step.settles
  | @spawn _ _ l' _ f ih =>
    have settles : Settles p l' (l'.spawn f).2 := .of_eq fun d => outcome?_newCell _ d l'
    exact (ih h).trans (spawn f l') settles

end Spares

/-- The cancellation of a plain cell that is waited for reaches it, if any. -/
theorem cancel_waited {waits : Option CellId} {depth : Nat} {l : Loop φ ρ κ} (deep : 0 < depth)
    (plain : ∀ d, waits = some d → l.kind? d = some .plain) :
    let passed := match waits with
      | some d => cancelWithin depth d l
      | none => (false, l)
    passed.2.tasks = l.tasks ∧ (passed.1 = true →
      ∃ d, waits = some d ∧ passed.2.outcome? d = some (.error .cancelled)) := by
  cases waits with
  | none => exact ⟨rfl, by simp⟩
  | some d =>
    obtain ⟨⟨source, outcome, wakers⟩, there, kind⟩ := Option.map_eq_some_iff.1 (plain d rfl)
    obtain ⟨n, rfl⟩ := Nat.exists_eq_succ_of_ne_zero (Nat.ne_of_gt deep)
    dsimp only
    rw [cancelWithin, there]
    cases source with
    | plain =>
      cases outcome with
      | none =>
        refine ⟨tasks_settle d _ l, fun _ => ⟨d, rfl, outcome?_settle_self ?_ ?_⟩⟩
        · exact (List.getElem?_eq_some_iff.1 there).1
        · rw [outcome?, there]
          rfl
      | some o => exact ⟨rfl, by simp⟩
    | task => cases kind
    | group => cases kind
    | countdown => cases kind

/-- A task that is given up has been asked to once more. -/
theorem tasks_cancelTask {t : TaskId} {task : TaskState φ} {l : Loop φ ρ κ}
    (found : l.tasks[t]? = some task) (own : l.kind? task.cell = some (.task t))
    (going : l.outcome? task.cell = none)
    (plain : ∀ c, task.waits = some c → l.kind? c = some .plain) :
    ∃ due, (l.cancelTask t).tasks[t]? =
        some { task with cancels := task.cancels + 1, cancelDue := due } ∧
      (due = true ∨ ∃ c, task.waits = some c ∧
        (l.cancelTask t).outcome? c = some (.error .cancelled)) := by
  have cell : l.taskCell t = task.cell := by rw [taskCell, found]
  obtain ⟨⟨source, outcome, wakers⟩, here, kind⟩ := Option.map_eq_some_iff.1 own
  have same : source = .task t := by
    cases source with
    | task u =>
      cases kind
      rfl
    | plain => cases kind
    | group => cases kind
    | countdown => cases kind
  have unsettled : outcome = none := by
    rw [outcome?, here] at going
    exact going
  subst same unsettled
  have counted : (l.setTask t fun task => { task with cancels := task.cancels + 1 }).tasks[t]? =
      some { task with cancels := task.cancels + 1 } := by
    simp [setTask, found]
  rw [cancelTask, cell, cancel, cancelWithin, here]
  dsimp only
  rw [counted]
  dsimp only [Option.bind_some]
  generalize made : (l.setTask t fun task => { task with cancels := task.cancels + 1 }) = l' at counted
  have cells : l'.cells = l.cells := by
    rw [← made]
    rfl
  have passes := @cancel_waited _ _ _ task.waits _ l'
    (Nat.zero_lt_of_lt (List.getElem?_eq_some_iff.1 here).1)
    fun d waits => (kind?_of_cells cells).trans (plain d waits)
  have ended (passed : Bool × Loop φ ρ κ) (tasks : passed.2.tasks = l'.tasks)
      (settles : passed.1 = true → ∃ d, task.waits = some d ∧
        passed.2.outcome? d = some (.error .cancelled)) (l'' : Loop φ ρ κ)
      (same : l'' = if passed.1 then passed.2
        else passed.2.setTask t fun task => { task with cancelDue := true }) :
      ∃ due, l''.tasks[t]? = some { task with cancels := task.cancels + 1, cancelDue := due } ∧
        (due = true ∨ ∃ c, task.waits = some c ∧ l''.outcome? c = some (.error .cancelled)) := by
    subst same
    split
    · next reached => exact ⟨_, by rw [tasks, counted], .inr (settles reached)⟩
    · exact ⟨true, by simp [setTask, tasks, counted], .inl rfl⟩
  exact ended _ passes.1 passes.2 _ rfl

end LanguageClient.Schedule.Loop
