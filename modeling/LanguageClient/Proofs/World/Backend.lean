import LanguageClient.Proofs.World.Keeps

/-!
What the operations of a backend keep. Those that wait for an exit are released by the exit alone;
writing a message is the only one that shows in the core.
-/

namespace LanguageClient.World

open Schedule

/-- An operation that does not show in the core. -/
structure Quiet (A : Licence) (R : CellId → Prop)
    (begun : List Frame) (w w' : World) : Prop where
  keeps : Keeps A R begun w w'
  core : w'.core = w.core

variable {A : Licence} {R : CellId → Prop} {begun more : List Frame}
variable {w w' w'' : World}

namespace Quiet

theorem refl (w : World) : Quiet A R [] w w := ⟨.refl w, rfl⟩

theorem trans (h : Quiet A R begun w w') (h' : Quiet A R more w' w'') :
    Quiet A R (begun ++ more) w w'' := ⟨h.keeps.trans h'.keeps, h'.core.trans h.core⟩

theorem foldl {α : Type} {f : World → α → World} {xs : List α}
    (h : ∀ x ∈ xs, ∀ w, Quiet A R [] w (f w x)) (w : World) :
    Quiet A R [] w (xs.foldl f w) := by
  induction xs generalizing w with
  | nil => exact refl w
  | cons x xs ih =>
    obtain ⟨first, others⟩ := List.forall_mem_cons.1 h
    exact (first w).trans (ih others _)

/-- A change of a backend that is not about who waits for it. -/
theorem noteBackend (b : BackendId) {f : Backend → Backend} (inbox : ∀ x, (f x).inbox = x.inbox)
    (holds : ∀ x, (f x).readers = x.readers ∧ (f x).writers = x.writers ∧
      (f x).waiters = x.waiters ∧ (f x).exitCode = x.exitCode) (w : World) :
    Quiet A R [] w (w.setBackend b f) := by
  refine ⟨(Keeps.refl w).setBackend b ?_ ?_ ?_ ?_, core_setBackend inbox b w⟩
  · exact fun x c hc => .inl ((holds x).1 ▸ hc)
  · exact fun x c hc => .inl ((holds x).2.1 ▸ hc)
  · exact fun x c hc => .inl ((holds x).2.2.1 ▸ hc)
  · intro x hx
    rwa [(holds x).2.2.2]

/-- Whoever waited is released. -/
theorem releaseAll (h : Quiet A R begun w w') {cs : List CellId}
    (well : ∀ c ∈ cs, ∃ r, w.Held r c ∧ w'.Earned A r (.ok .nothing)) :
    Quiet A R begun w (w'.releaseAll cs) :=
  ⟨h.keeps.releaseAll well, (core_releaseAll cs w').trans h.core⟩

end Quiet

theorem backend_of_le {b : BackendId} {w : World} (h : w.backends.length ≤ b) :
    w.backend b = default := by
  rw [backend, List.getD_eq_getElem?_getD, List.getElem?_eq_none h]
  rfl

theorem lt_of_mem_waiters {b : BackendId} {c : CellId} {w : World}
    (h : c ∈ (w.backend b).waiters) : b < w.backends.length := by
  refine Nat.lt_of_not_le fun out => ?_
  rw [backend_of_le out] at h
  cases h

theorem backend_setBackend_self {b : BackendId} {w : World} (h : b < w.backends.length)
    (f : Backend → Backend) : (w.setBackend b f).backend b = f (w.backend b) := by
  simp [backend, setBackend, List.getD_eq_getElem?_getD, List.getElem?_eq_getElem h]

theorem inbox_note {e : Backend.Entry} (h : ∀ message, e ≠ .sent message) (x : Backend) :
    (x.note e).inbox = x.inbox := by
  rw [Backend.inbox, Backend.inbox, Backend.received_note h]
  rfl

theorem quiet_note {e : Backend.Entry} (h : ∀ message, e ≠ .sent message) (b : BackendId)
    (w : World) : Quiet A R [] w (w.setBackend b (·.note e)) :=
  .noteBackend b (inbox_note h) (fun _ => ⟨rfl, rfl, rfl, rfl⟩) w

theorem quiet_wakeReaders (b : BackendId) (w : World) :
    Quiet A R [] w (w.wakeReaders b) := by
  have cleared : Quiet A R [] w (w.setBackend b fun x => { x with readers := [] }) :=
    ⟨(Keeps.refl w).setBackend b (fun _ _ hc => nomatch hc) (fun _ _ hc => .inl hc)
      (fun _ _ hc => .inl hc) (fun _ hx => hx), core_setBackend (fun _ => by rfl) b w⟩
  exact cleared.releaseAll fun c hc => ⟨.loose, .data (.reader hc), rfl⟩

theorem quiet_feed (b : BackendId) (bytes : Text.Bytes) (w : World) :
    Quiet A R [] w (w.feed b bytes) := by
  unfold feed
  dsimp only
  split
  · exact .refl w
  · have fed : Quiet A R [] w
        (w.setBackend b fun x => { x with output := x.output.feed bytes }) := by
      refine .noteBackend b (fun _ => ?_) (fun _ => ?_) w
      · rfl
      · exact ⟨rfl, rfl, rfl, rfl⟩
    exact fed.trans (quiet_wakeReaders b _)

theorem quiet_endOutput (b : BackendId) (w : World) :
    Quiet A R [] w (w.endOutput b) := by
  have ended : Quiet A R [] w
      (w.setBackend b fun x => { x with output := x.output.finish }) := by
    refine .noteBackend b (fun _ => ?_) (fun _ => ?_) w
    · rfl
    · exact ⟨rfl, rfl, rfl, rfl⟩
  exact ended.trans (quiet_wakeReaders b _)

theorem quiet_exit (b : BackendId) (code : Int) (endsOutput : Bool) (w : World) :
    Quiet A R [] w (w.exit b code endsOutput) := by
  unfold exit
  dsimp only
  split
  · exact .refl w
  · have left : Quiet A R [] w (w.setBackend b fun x =>
        { x.note (.exit code) with exitCode := some code, waiters := [] }) := by
      refine ⟨(Keeps.refl w).setBackend b (fun _ _ hc => .inl hc) (fun _ _ hc => .inl hc)
        (fun _ _ hc => nomatch hc) (fun _ _ => rfl), core_setBackend (fun x => ?_) b w⟩
      exact inbox_note (by simp) x
    have due (c : CellId) (hc : c ∈ (w.backend b).waiters) :
        ∃ r, w.Held r c ∧ (w.setBackend b fun x =>
          { x.note (.exit code) with exitCode := some code, waiters := [] }).Earned A r
            (.ok .nothing) := by
      refine ⟨.exit b, .data (.waiter hc), rfl, ?_⟩
      simp only [Exited, backend_setBackend_self (lt_of_mem_waiters hc), Option.isSome_some]
    have told := left.releaseAll due
    split
    · exact told.trans (quiet_endOutput b _)
    · exact told

theorem backends_releaseAll (cs : List CellId) (w : World) :
    (w.releaseAll cs).backends = w.backends := by
  induction cs generalizing w with
  | nil => rfl
  | cons c cs ih => exact ih (w.release c)

theorem exited_exit {b : BackendId} {w : World} (h : b < w.backends.length) (code : Int)
    (endsOutput : Bool) : (w.exit b code endsOutput).Exited b := by
  unfold exit
  dsimp only
  split
  · next gone => exact gone
  · have left : ((w.setBackend b fun x => { x.note (.exit code) with
        exitCode := some code, waiters := [] }).releaseAll (w.backend b).waiters).Exited b := by
      rw [Exited, World.backend, backends_releaseAll, ← World.backend, backend_setBackend_self h]
      rfl
    split
    · have kept := quiet_endOutput (A := .none) (R := fun _ => False) b
        ((w.setBackend b fun x => { x.note (.exit code) with
          exitCode := some code, waiters := [] }).releaseAll (w.backend b).waiters)
      exact kept.keeps.exits b left
    · exact left

theorem quiet_reply (b : BackendId) (id : Value) (r : Backend.Reply) (w : World) :
    Quiet A R [] w (w.reply b id r) := by
  cases r with
  | accept => exact quiet_feed b _ w
  | reject e => exact quiet_feed b _ w
  | silence => exact .refl w
  | leave => exact quiet_exit b _ _ w

theorem quiet_greet (b : BackendId) (greetings : List Value) (w : World) :
    Quiet A R [] w
      (greetings.foldl (fun w message => w.feed b (Wire.frame message)) w) :=
  .foldl (fun message _ w => quiet_feed b (Wire.frame message) w) w

theorem quiet_unstallInput (b : BackendId) (w : World) :
    Quiet A R [] w (w.unstallInput b) := by
  have opened : Quiet A R [] w
      (w.setBackend b fun x => { x with stalled := false, writers := [] }) :=
    ⟨(Keeps.refl w).setBackend b (fun _ _ hc => .inl hc) (fun _ _ hc => nomatch hc)
      (fun _ _ hc => .inl hc) (fun _ hx => hx), core_setBackend (fun _ => by rfl) b w⟩
  exact opened.releaseAll fun c hc => ⟨.loose, .data (.writer hc), rfl⟩

theorem quiet_undergo (b : BackendId) (r : Backend.Reaction) (code : Int) (w : World) :
    Quiet A R [] w (w.undergo b r code).2 := by
  cases r with
  | leave => exact quiet_exit b _ _ w
  | stay => exact .refl w
  | gone => exact quiet_exit b _ _ w

theorem quiet_terminate (b : BackendId) (w : World) :
    Quiet A R [] w (w.terminate b).2 := by
  have noted : Quiet A R [] w (w.setBackend b (·.note .terminate)) :=
    quiet_note (by simp) b w
  unfold terminate
  dsimp only
  split
  · exact noted
  · exact noted.trans (quiet_undergo b _ _ _)

/-- A process that cannot be told to end has ended. -/
theorem exited_terminate {b : BackendId} (told : (w.terminate b).1 = false) :
    (w.terminate b).2.Exited b := by
  have noted : Quiet .none (fun _ => False) [] w (w.setBackend b (·.note .terminate)) :=
    quiet_note (by simp) b w
  by_cases gone : (w.backend b).exitCode.isSome = true
  · have kept := noted.keeps.exits b gone
    rw [terminate, if_pos gone]
    exact kept
  · rw [terminate, if_neg gone] at told ⊢
    cases plan : (w.backend b).plan.onTerminate with
    | gone =>
      have inside : b < w.backends.length := by
        refine Nat.lt_of_not_le fun out => ?_
        rw [backend_of_le out] at plan
        cases plan
      refine exited_exit ?_ 0 true
      rw [setBackend, List.length_modify]
      exact inside
    | leave =>
      rw [plan] at told
      cases told
    | stay =>
      rw [plan] at told
      cases told

theorem quiet_killBackend (b : BackendId) (w : World) :
    Quiet A R [] w (w.killBackend b) := by
  have noted : Quiet A R [] w (w.setBackend b (·.note .kill)) :=
    quiet_note (by simp) b w
  unfold killBackend
  dsimp only
  split
  · exact .refl w
  · exact noted.trans (quiet_undergo b _ _ _)

theorem beginBackend_spec (b : BackendId) (w : World) :
    Keeps A R [] w (w.beginBackend b) ∧ (w.beginBackend b).core = w.core.spawn b := by
  constructor
  · exact (Keeps.refl w).setBackend b (fun _ _ hc => .inl hc) (fun _ _ hc => .inl hc)
      (fun _ _ hc => .inl hc) fun _ hx => hx
  · have same : (w.beginBackend b).backends.map Backend.inbox =
        (w.backends.map Backend.inbox).modify b fun i => { i with spawned := true } := by
      refine map_modify (fun x => ?_) b w.backends
      have noted := inbox_note (e := .spawned) (by simp) x
      exact congrArg (fun i : Inbox => { i with spawned := true }) noted
    simp only [core, same, Core.spawn]
    rfl

theorem modify_congr {α : Type} {xs : List α} {i : Nat} {f g : α → α}
    (h : ∀ x, xs[i]? = some x → f x = g x) : xs.modify i f = xs.modify i g := by
  refine List.ext_getElem? fun j => ?_
  rw [List.getElem?_modify, List.getElem?_modify]
  by_cases same : i = j
  · subst same
    cases found : xs[i]? with
    | none => rfl
    | some x => simp [h x found]
  · simp [same]

theorem inbox_of_getElem? {b : BackendId} {x : Inbox} {w : World}
    (h : w.core.inboxes[b]? = some x) : (w.backend b).inbox = x := by
  rw [← inbox_core, Core.inbox, List.getD_eq_getElem?_getD, h]
  rfl

/-- What a message makes a backend do shows at most in that its input breaks. -/
theorem react_spec (b : BackendId) (method : String) (id : Value) (w : World) :
    Keeps A R [] w (w.react b method id) ∧
      ∃ last, (w.react b method id).core = { w.core with
        inboxes := w.core.inboxes.modify b fun x => { x with broken := x.broken || last } } := by
  let marked := w.setBackend b fun x => { x with
      broken := x.broken || (w.backend b).plan.breakOn = some method
      stalled := x.stalled || (w.backend b).plan.stallOn = some method }
  have kept : Keeps A R [] w marked :=
    (Keeps.refl w).setBackend b (fun _ _ hc => .inl hc) (fun _ _ hc => .inl hc)
      (fun _ _ hc => .inl hc) (fun _ hx => hx)
  have core : marked.core = { w.core with
      inboxes := w.core.inboxes.modify b fun x =>
        { x with broken := x.broken || decide ((w.backend b).plan.breakOn = some method) } } := by
    simp only [World.core, marked, setBackend]
    rw [map_modify (h := fun x : Inbox =>
      { x with broken := x.broken || decide ((w.backend b).plan.breakOn = some method) })
      fun x => by rfl]
    rfl
  have after {w' : World} (h : Quiet A R [] marked w') :
      Keeps A R [] w w' ∧ ∃ last, w'.core = { w.core with
        inboxes := w.core.inboxes.modify b fun x => { x with broken := x.broken || last } } :=
    ⟨kept.trans h.keeps, _, h.core.trans core⟩
  unfold react
  dsimp only
  split
  · exact after (quiet_reply b id _ _)
  · split
    · exact after (quiet_greet b _ _)
    · split
      · exact after (quiet_reply b id _ _)
      · split
        · split
          · exact after (quiet_exit b _ _ _)
          · exact after (.refl _)
        · exact after (.refl _)

/-- A message joins those received, unless the input is broken; it may break the input. -/
theorem send_spec (b : BackendId) (message : Value) (w : World) :
    Keeps A R [] w (w.send b message) ∧
      ∃ last, (w.send b message).core = w.core.send b message last := by
  unfold send
  split
  · next broken =>
    refine ⟨.refl w, false, ?_⟩
    have same : w.core.inboxes.modify b (·.take message false) = w.core.inboxes.modify b id := by
      refine modify_congr fun x found => ?_
      have stuck : x.broken = true := by
        rw [← inbox_of_getElem? found]
        exact broken
      simp [Inbox.take, stuck]
    rw [Core.send, same, List.modify_id]
  · next sound =>
    have kept : Keeps A R [] w (w.setBackend b (·.note (.sent message))) :=
      (Keeps.refl w).setBackend b (fun _ _ hc => .inl hc) (fun _ _ hc => .inl hc)
        (fun _ _ hc => .inl hc) (fun _ hx => hx)
    have noted : (w.setBackend b (·.note (.sent message))).core.inboxes =
        w.core.inboxes.modify b fun x => { x with received := x.received ++ [message] } := by
      refine map_modify (fun x => ?_) b w.backends
      rw [Backend.inbox, Backend.received_note_sent]
      rfl
    have taken (last : Bool) {w' : World} (h : w'.core = { w.core with
        inboxes := (w.setBackend b (·.note (.sent message))).core.inboxes.modify b
          fun x => { x with broken := x.broken || last } }) :
        w'.core = w.core.send b message last := by
      have same : w.core.inboxes.modify b (·.take message last) = w.core.inboxes.modify b
          ((fun x : Inbox => { x with broken := x.broken || last }) ∘
            fun x : Inbox => { x with received := x.received ++ [message] }) := by
        refine modify_congr fun x found => ?_
        have intact : x.broken = false := by
          rw [← inbox_of_getElem? found]
          exact Bool.eq_false_iff.2 sound
        simp [Inbox.take, intact]
      rw [h, noted, List.modify_modify_eq, Core.send, same]
    have plain : (w.setBackend b (·.note (.sent message))).core = { w.core with
        inboxes := (w.setBackend b (·.note (.sent message))).core.inboxes.modify b
          fun x => { x with broken := x.broken || false } } := by
      simp only [Bool.or_false]
      rw [show (fun x : Inbox => ({ x with broken := x.broken } : Inbox)) = id from rfl,
        List.modify_id]
      rfl
    dsimp only
    split
    · exact ⟨kept, false, taken false plain⟩
    · split
      · obtain ⟨kept', last, core⟩ := react_spec (A := A) (R := R) b _ _
          (w.setBackend b (·.note (.sent message)))
        exact ⟨kept.trans kept', last, taken last core⟩
      · exact ⟨kept, false, taken false plain⟩

theorem getD_concat {α : Type} (xs : List α) (x d : α) (i : Nat) :
    (xs ++ [x]).getD i d = xs.getD i d ∨ (i = xs.length ∧ (xs ++ [x]).getD i d = x) := by
  rcases Nat.lt_trichotomy i xs.length with less | same | more
  · exact .inl (by simp [List.getD_eq_getElem?_getD, List.getElem?_append_left less])
  · subst same
    exact .inr ⟨rfl, by simp [List.getD_eq_getElem?_getD]⟩
  · left
    have out : (xs ++ [x]).length ≤ i := by
      rw [List.length_append]
      exact more
    simp [List.getD_eq_getElem?_getD, List.getElem?_eq_none out,
      List.getElem?_eq_none (Nat.le_of_lt more)]

/-- What is new holds no cell and knows no task. -/
theorem Keeps.extend (h : Keeps A R begun w w') (loop : w''.loop = w'.loop)
    (current : w''.current = w'.current) (reports : w''.workspace.reports = w'.workspace.reports)
    (backends : ∀ b, w''.backend b = w'.backend b ∨ ((w'.backend b).exitCode = none ∧
      (w''.backend b).readers = [] ∧ (w''.backend b).writers = [] ∧ (w''.backend b).waiters = []))
    (sessions : ∀ s, w''.session s = w'.session s ∨
      ((w''.session s).takers = [] ∧ (w''.session s).reaper = none))
    (connections : ∀ k, w''.connection k = w'.connection k ∨ ((w''.connection k).pending = [] ∧
      (w''.connection k).reader = none ∧ (w''.connection k).answers = []))
    (relays : ∀ r, w''.relay r = w'.relay r ∨ (w''.relay r).task = none) :
    Keeps A R begun w w'' := by
  refine h.data loop current ?_ ?_ ?_
  · intro r c hc
    left
    cases hc with
    | @reader b _ hc =>
      rcases backends b with same | ⟨-, blank, -, -⟩
      · exact .reader (same ▸ hc)
      · rw [blank] at hc
        cases hc
    | @writer b _ hc =>
      rcases backends b with same | ⟨-, -, blank, -⟩
      · exact .writer (same ▸ hc)
      · rw [blank] at hc
        cases hc
    | @waiter b _ hc =>
      rcases backends b with same | ⟨-, -, -, blank⟩
      · exact .waiter (same ▸ hc)
      · rw [blank] at hc
        cases hc
    | @taker s _ hc =>
      rcases sessions s with same | ⟨blank, -⟩
      · exact .taker (same ▸ hc)
      · rw [blank] at hc
        cases hc
    | @pending k id _ hc =>
      rcases connections k with same | ⟨blank, -⟩
      · exact .pending (same ▸ hc)
      · rw [blank] at hc
        cases hc
  · intro b hb
    rcases backends b with same | ⟨alive, -⟩
    · rwa [Exited, same]
    · rw [Exited, alive] at hb
      cases hb
  · intro drops t ht
    left
    cases ht with
    | @reader k _ ht =>
      rcases connections k with same | ⟨-, blank, -⟩
      · exact .reader (same ▸ ht)
      · rw [blank] at ht
        cases ht
    | @answer k _ ht =>
      rcases connections k with same | ⟨-, -, blank⟩
      · exact .answer (same ▸ ht)
      · rw [blank] at ht
        cases ht
    | @reaper s _ ht =>
      rcases sessions s with same | ⟨-, blank⟩
      · exact .reaper (same ▸ ht)
      · rw [blank] at ht
        cases ht
    | @relay r _ ht =>
      rcases relays r with same | blank
      · exact .relay (same ▸ ht)
      · rw [blank] at ht
        cases ht
    | report ht => exact .report (reports ▸ ht)

theorem requestBackend_spec (command : List String) (folder : Option String) (w : World) :
    (w.requestBackend command folder).1 = w.backends.length ∧
      Keeps A R [] w (w.requestBackend command folder).2 ∧
      (w.requestBackend command folder).2.core =
        { w.core with inboxes := w.core.inboxes ++ [⟨[], false, false⟩] } := by
  refine ⟨rfl, ?_, by simp [requestBackend, core, roster]; rfl⟩
  refine (Keeps.refl w).extend rfl rfl rfl ?_ (fun _ => .inl rfl) (fun _ => .inl rfl)
    (fun _ => .inl rfl)
  intro b
  refine (getD_concat w.backends _ default b).imp_right ?_
  rintro ⟨rfl, fresh⟩
  have none : w.backend w.backends.length = default := backend_of_le (Nat.le_refl _)
  refine ⟨by rw [none]; rfl, ?_, ?_, ?_⟩
  · exact congrArg Backend.readers fresh
  · exact congrArg Backend.writers fresh
  · exact congrArg Backend.waiters fresh

theorem quiet_awaitExit {b : BackendId} (gives : A.gives (.exit b)) (w : World) :
    Quiet A R [] w (w.awaitExit b).2 := by
  have made : Quiet A R [] w w.newCell.2 := ⟨(Keeps.refl w).newCell, rfl⟩
  unfold awaitExit
  dsimp only
  split
  · next exited =>
    exact ⟨made.keeps.release _ (.inr ⟨Keeps.fresh_newCell w, .exit b, gives, rfl, exited⟩), rfl⟩
  · refine ⟨made.keeps.setBackend b (fun _ _ hc => .inl hc) (fun _ _ hc => .inl hc) ?_
      (fun _ hx => hx), core_setBackend (fun _ => by rfl) b _⟩
    intro x c hc
    rcases List.mem_append.1 hc with old | new
    · exact .inl old
    · rw [List.mem_singleton.1 new]
      exact .inr ⟨Keeps.fresh_newCell w, gives⟩

end LanguageClient.World
