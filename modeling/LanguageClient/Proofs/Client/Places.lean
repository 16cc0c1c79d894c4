import LanguageClient.Proofs.Client.Linked
import LanguageClient.Proofs.World.Fate

/-!
A client by itself: every task is at one of its places, every place stands on the one that has
called it, and nobody else uses the cell that a task waits for.
-/

namespace LanguageClient

open Schedule

/-- Places of the tasks that may be given up. -/
def Frame.serves : Frame → Bool
  | .connection _ p => p.serves
  | _ => false

/-- Places at which the calls of a client begin. -/
def Frame.isCall : Frame → Bool
  | .connection _ (.notify ..) | .connection _ (.request ..) | .connection _ .close
  | .session _ .start | .session _ (.notify ..) | .session _ (.stop _)
  | .session _ (.consume .recorder) => true
  | _ => false

namespace Frame

theorem isClient_of_call {f : Frame} (h : f.isCall = true) : f.isClient = true := by
  unfold isCall at h
  split at h <;> first | rfl | cases h

theorem names_of_call {f : Frame} (h : f.isCall = true) : f.names = [] := by
  unfold isCall at h
  split at h <;> first | rfl | cases h

theorem ne_wait_of_call {f : Frame} (h : f.isCall = true) (p : Wait) : f ≠ .wait p := by
  rintro rfl
  cases h

end Frame

namespace World

variable {may : Frame → Prop} {R : CellId → Prop} {t u : TaskId} {c : CellId} {w w' : World}
variable {f : Frame} {rest above below : List Frame} {o : Outcome Result} {flow : Flow Frame Result}

/-- Where a task stands that reads from a backend or answers a request of it, or has ended. -/
def Errand (stack : List Frame) : Prop := ∀ f ∈ stack.getLast?, f.serves = true

/-- Where a task stands that somebody may give up, or that a timer may. -/
def Tended (stack : List Frame) : Prop := Errand stack ∨ ∃ p rest, stack = .wait p :: rest

/-- A task waits for a cell, or will. -/
def Uses (w : World) (t : TaskId) (c : CellId) : Prop :=
  w.loop.waits t = some c ∨ ∃ f ∈ w.stack t, c ∈ f.names

theorem Leads.client (h : Leads t w w' f o flow) (client : f.isClient = true) :
    ∀ g ∈ flow.frames, g.isClient = true := by
  have stage {s : SessionId} {p : Session.Stage}
      (h : p = .consume .recorder ∨ ∃ c, p = .consumeAwoken .recorder c) :
      (Frame.session s p).isClient = true := by
    rcases h with rfl | ⟨c, rfl⟩ <;> rfl
  have one {g : Frame} (hg : g.isClient = true) : ∀ g' ∈ [g], g'.isClient = true :=
    List.forall_mem_singleton.2 hg
  have two {g g' : Frame} (hg : g.isClient = true) (hg' : g'.isClient = true) :
      ∀ g'' ∈ [g, g'], g''.isClient = true :=
    List.forall_mem_cons.2 ⟨hg, List.forall_mem_singleton.2 hg'⟩
  cases h with
  | waits | guards | givesUp | stalls | flows | notes | closes | stopsReader | arrives | joins
  | stops | turns | insists | vacates | exits => exact one rfl
  | requests | written | answers | connects | greets | abandons | readies | tells | asks
  | dismisses | releases => exact two rfl rfl
  | serves _ _ flow_ => rcases flow_ with rfl | ⟨c, -, rfl⟩ <;> exact one rfl
  | stopsAnswers _ flow_ => rcases flow_ with rfl | ⟨c, rfl⟩ <;> exact one rfl
  | launches _ flow_ => rcases flow_ with rfl | ⟨c, -, rfl⟩ <;> exact one rfl
  | unconnected _ stages =>
    rcases stages with ⟨-, rfl⟩ | ⟨-, rfl⟩ | ⟨timeout, -, rfl⟩ <;> exact one rfl
  | takes _ next flow_ =>
    rcases flow_ with rfl | rfl | ⟨c, -, rfl⟩
    · exact fun _ hg => nomatch hg
    · exact one (stage next)
    · exact one (stage next)
  | watches _ _ stages =>
    rcases stages with ⟨-, rfl, -⟩ | ⟨-, rfl, -⟩ | ⟨-, rfl, -⟩ <;> exact two rfl rfl
  | _ => exact fun _ hg => nomatch hg

theorem Leads.serves_iff (h : Leads t w w' f o flow) :
    ∀ g ∈ flow.frames.getLast?, g.serves = f.serves := by
  have one {g : Frame} (hg : g.serves = f.serves) : ∀ g' ∈ [g].getLast?, g'.serves = f.serves := by
    rintro _ ⟨⟩
    exact hg
  cases h with
  | waits | guards | givesUp | stalls | flows | notes | closes | stopsReader | arrives | joins
  | stops | turns | insists | vacates | exits => exact one rfl
  | requests | written | answers | connects | greets | abandons | readies | tells | asks
  | dismisses | releases => exact one rfl
  | serves serves next flow_ =>
    have same := next.trans serves.symm
    rcases flow_ with rfl | ⟨c, -, rfl⟩ <;> exact one same
  | stopsAnswers _ flow_ => rcases flow_ with rfl | ⟨c, rfl⟩ <;> exact one rfl
  | launches _ flow_ => rcases flow_ with rfl | ⟨c, -, rfl⟩ <;> exact one rfl
  | unconnected => exact one rfl
  | takes _ _ flow_ =>
    rcases flow_ with rfl | rfl | ⟨c, -, rfl⟩
    · exact fun _ hg => nomatch hg
    · exact one rfl
    · exact one rfl
  | watches => exact one rfl
  | _ => exact fun _ hg => nomatch hg

/-- An errand waits for what it writes to be taken, at most. -/
theorem Errand.top (h : Errand (f :: rest)) (linked : Linked (f :: rest)) :
    f.serves = true ∨ Routine.drains.Has f := by
  induction rest generalizing f with
  | nil => exact .inl (h f rfl)
  | cons g rest ih =>
    obtain ⟨⟨r, calls, has⟩, below⟩ := linked
    have under : Errand (g :: rest) := fun f' hf' => h f' (by rwa [List.getLast?_cons_cons])
    rcases ih under below with serves | drains
    · right
      cases g with
      | connection k p =>
        cases p with
        | answerWritten =>
          cases calls
          exact has
        | _ => cases serves <;> cases calls
      | _ => cases serves
    · cases drains <;> cases calls

/-- A client by itself. -/
structure Client (w : World) : Prop where
  places : ∀ t, ∀ f ∈ w.stack t, f.isClient = true
  linked : ∀ t, Linked (w.stack t)
  errands : ∀ t, w.Refers true t → Errand (w.stack t)
  inside : ∀ t c, w.loop.waits t = some c → c < w.loop.cells.length
  plain : ∀ t c, Tended (w.stack t) → w.loop.waits t = some c → w.loop.kind? c = some .plain
  users : ∀ c t u, (∀ v, w.loop.kind? c ≠ some (.task v)) → w.Uses t c → w.Uses u c → t = u

theorem getLast?_frames {frames : List Frame} :
    (frames ++ rest).getLast? = if rest = [] then frames.getLast? else rest.getLast? := by
  split
  · next empty => rw [empty, List.append_nil]
  · next busy =>
    rw [List.getLast?_append, List.getLast?_eq_some_getLast busy]
    rfl

theorem Errand.goes (h : Errand (f :: rest)) (leads : Leads t w w' f o flow) :
    Errand (flow.frames ++ rest) := by
  intro g hg
  rw [getLast?_frames] at hg
  split at hg
  · next empty =>
    subst empty
    rw [leads.serves_iff g hg]
    exact h f rfl
  · next busy =>
    refine h g ?_
    rwa [← List.singleton_append, getLast?_frames, if_neg busy]

/-- Nothing becomes an errand that has been none before. -/
theorem Errand.of_goes {g : Frame} (leads : Leads t w w' f o flow) (last : g ∈ flow.frames.getLast?)
    (h : Errand (flow.frames ++ rest)) : Errand (f :: rest) := by
  intro g' hg'
  rw [← List.singleton_append, getLast?_frames] at hg'
  split at hg'
  · next empty =>
    have same : f = g' := Option.some.inj hg'
    rw [← same, ← leads.serves_iff g last]
    exact h g (by rwa [getLast?_frames, if_pos empty])
  · next busy => exact h g' (by rwa [getLast?_frames, if_neg busy])

theorem client_of_succeeds {g : Frame} (h : f.Succeeds g) (client : f.isClient = true) :
    g.isClient = true := by
  obtain ⟨s, k, here⟩ : ∃ s k, f.IsLocal (some s) (some k) := by
    cases f with
    | wait => exact ⟨0, 0, trivial⟩
    | pass => exact ⟨0, 0, trivial⟩
    | connection k => exact ⟨0, k, rfl⟩
    | session s p =>
      refine ⟨s, 0, ?_⟩
      cases p with
      | consume taker =>
        cases taker with
        | relay => cases client
        | recorder => exact .inr rfl
      | consumeAwoken taker =>
        cases taker with
        | relay => cases client
        | recorder => exact .inr rfl
      | _ => exact .inr rfl
    | relay => cases client
    | roster => cases client
    | workspace => cases client
  have there := h.local_ _ _ here
  cases g with
  | wait => rfl
  | pass => rfl
  | connection => rfl
  | session s' p =>
    cases p with
    | consume taker =>
      cases taker with
      | relay => cases there
      | recorder => rfl
    | consumeAwoken taker =>
      cases taker with
      | relay => cases there
      | recorder => rfl
    | _ => rfl
  | relay => cases there
  | roster => cases there
  | workspace => cases there

theorem serves_of_errand {g : Frame} (errand : g.isErrand = true) (client : g.isClient = true) :
    g.serves = true := by
  cases g with
  | connection k p =>
    cases p with
    | read => rfl
    | answer => rfl
    | _ => cases errand
  | session s p =>
    cases p with
    | consume taker =>
      cases taker with
      | relay => cases client
      | recorder => cases errand
    | _ => cases errand
  | workspace p =>
    cases client
  | _ => cases errand

/-- A step of a client begins errands, and tasks that see to the end of a process. -/
theorem Change.opened {begun : List Frame} {x : Core} (h : Change w f o begun flow x)
    (client : f.isClient = true) :
    ∀ g ∈ begun, g.serves = true ∨ ∃ s grace, g = .session s (.shutdown grace) := by
  cases h with
  | quiet _ begun_ =>
    intro g hg
    have opens := begun_ g hg
    exact .inl (serves_of_errand opens.errand (client_of_succeeds opens.succeeds client))
  | loses => exact List.forall_mem_singleton.2 (.inr ⟨_, _, rfl⟩)
  | connects => exact List.forall_mem_singleton.2 (.inl rfl)
  | stopsAll => cases client
  | _ => exact fun _ hg => nomatch hg

theorem client_of_serves {g : Frame} (h : g.serves = true) : g.isClient = true := by
  cases g with
  | connection => rfl
  | _ => cases h

namespace Client

theorem leads {begun : List Frame} {w₂ : World} (h : w.Client)
    (s : Strides R w w' t f o rest begun flow w₂) :
    Leads t { w with current := none } w₂ f o flow := by
  have known : Leads t { w with current := none } ({ w with current := none }.resume t f o).2 f o
      ({ w with current := none }.resume t f o).1 :=
    resume_leads (h.places t f (s.top ▸ List.mem_cons_self)) o
  rwa [s.steps] at known

theorem lt_of_uses (h : w.Client) (sound : w.Sound) (uses : w.Uses t c) :
    c < w.loop.cells.length := by
  rcases uses with waits | ⟨f, hf, hc⟩
  · exact h.inside t c waits
  · exact Loop.lt_of_kind? (sound.names t f hf c hc)

/-- A task that has made a step waits for a cell that it has named before, that is new, or that is a
task's. -/
theorem strides_waits {begun : List Frame} {w₂ : World}
    (s : Strides R w w' t f o rest begun flow w₂) (waits : w'.loop.waits t = some c) :
    ∃ g, flow = .await c g ∧ (c ∈ f.names ∨
      (∃ drops u, w.Refers drops u ∧ c = w.loop.taskCell u) ∨ Made w.loop.cells.length R c w₂) := by
  have next := s.lands.next
  have rest {w₃ : World} (other : w₃.loop.waits t = none) (same : w₃ = w') : False := by
    rw [same, waits] at other
    cases other
  cases flow with
  | done => exact (rest next.2 rfl).elim
  | goto => exact (rest next.2 rfl).elim
  | call => exact (rest next.2 rfl).elim
  | pause => exact (rest next.2 rfl).elim
  | await d g =>
    rcases next with ⟨-, -, -, none⟩ | ⟨-, same⟩
    · exact (rest none rfl).elim
    · rw [same] at waits
      cases waits
      refine ⟨g, rfl, ?_⟩
      rcases s.turn.awaits.cell _ _ rfl with named | ⟨drops, u, known, same⟩ | made
      · exact .inl named
      · exact .inr (.inl ⟨drops, u, known.aside, same⟩)
      · exact .inr (.inr made)

/-- What a task uses it has used before, or it is new, or a task's. -/
theorem uses_cases (sound : w.Sound) (m : Moves may R w w')
    (first : ∀ g, may g → g.isCall = true) (uses : w'.Uses u c)
    (other : ∀ v, w'.loop.kind? c ≠ some (.task v)) :
    w.Uses u c ∨ (w.loop.cells.length ≤ c ∧ ∃ o, w.current = some (u, o)) := by
  cases sound.fate m.move u with
  | stays stack waits =>
    left
    rwa [Uses, waits, stack] at uses
  | ends _ stack waits =>
    rw [Uses, waits, stack] at uses
    rcases uses with none | ⟨f, hf, -⟩
    · cases none
    · cases hf
  | wakes _ stack _ waits =>
    left
    rw [Uses, waits, stack] at uses
    rcases uses with none | named
    · cases none
    · exact .inr named
  | @begins g new stack waits _ source =>
    rw [Uses, waits, stack] at uses
    have none : g.names = [] := by
      rcases source with ⟨-, allowed⟩ | ⟨t, f, o, rest, begun, flow, w₂, s, found⟩
      · exact Frame.names_of_call (first g allowed)
      · exact (s.turn.change.firsts g (List.mem_of_getElem? found)).1
    rcases uses with none | ⟨f, hf, hc⟩
    · cases none
    · rw [List.mem_singleton.1 hf, none] at hc
      cases hc
  | @goes f o rest begun flow w₂ s stack =>
    have named {f' : Frame} (hf : f' ∈ w.stack u) (hc : c ∈ f'.names) : w.Uses u c :=
      .inr ⟨f', hf, hc⟩
    have top : f ∈ w.stack u := s.top ▸ List.mem_cons_self
    rcases uses with waits | ⟨g, hg, hc⟩
    · obtain ⟨g, -, same | ⟨drops, v, known, rfl⟩ | made⟩ := strides_waits s waits
      · exact .inl (named top same)
      · have inside := sound.refers drops v known
        exact absurd ((m.moved.kind _ (sound.inside inside)).trans (sound.cells v inside)) (other v)
      · exact .inr ⟨made.new, o, s.runs⟩
    · rw [stack] at hg
      rcases List.mem_append.1 hg with new | old
      · rcases s.turn.awaits.names g new c hc with same | ⟨low, -⟩
        · exact .inl (named top same)
        · exact .inr ⟨low, o, s.runs⟩
      · exact .inl (named (s.top ▸ List.mem_cons_of_mem f old) hc)

/-- A task that somebody may give up, or that a timer may, comes to wait for a plain cell. -/
theorem plain_await {begun : List Frame} {w₂ : World} {g : Frame} (h : w.Client) (sound : w.Sound)
    (s : Strides R w w' t f o rest begun (.await c g) w₂) (tended : Tended (g :: rest)) :
    w₂.loop.kind? c = some .plain := by
  have leads := h.leads s
  have linked : Linked (f :: rest) := s.top ▸ h.linked t
  rcases tended with errand | ⟨p, rest', same⟩
  · have stood : Errand (f :: rest) := errand.of_goes leads rfl
    rcases stood.top linked with serves | drains
    · cases leads with
      | serves _ _ flow_ =>
        rcases flow_ with same | ⟨d, new, same⟩
        · cases same
        · cases same
          exact new.2
      | waits | guards | givesUp | stalls | stopsReader | stopsAnswers | joins | launches | takes =>
        cases serves
    · cases drains with
      | drain => cases leads with
        | stalls new => exact new.2
        | serves serves => cases serves
      | drained => cases leads with
        | serves serves => cases serves
  · obtain ⟨rfl, -⟩ := List.cons_eq_cons.1 same
    cases leads with
    | @guards _ span =>
      have plain := sound.names t (.wait (.start c (.after span))) (s.top ▸ List.mem_cons_self) c
        (List.mem_singleton_self c)
      exact (s.turn.keeps.kept.kind c (Loop.lt_of_kind? plain)).trans plain
    | givesUp _ new => exact new.2
    | serves _ _ flow_ => rcases flow_ with same | ⟨d, -, same⟩ <;> cases same
    | stopsAnswers _ flow_ => rcases flow_ with same | ⟨d, same⟩ <;> cases same
    | launches _ flow_ => rcases flow_ with same | ⟨d, -, same⟩ <;> cases same
    | takes _ _ flow_ => rcases flow_ with same | same | ⟨d, -, same⟩ <;> cases same

theorem plain_goes {begun : List Frame} {w₂ : World} (h : w.Client) (sound : w.Sound)
    (s : Strides R w w' t f o rest begun flow w₂) (tended : Tended (flow.frames ++ rest))
    (waits : w'.loop.waits t = some c) : w'.loop.kind? c = some .plain := by
  obtain ⟨g, rfl, -⟩ := strides_waits s waits
  have plain := h.plain_await sound s tended
  exact ((s.lands.aside.kept .none).kind c (Loop.lt_of_kind? plain)).trans plain

/-- A move leaves a client by itself. -/
theorem move (h : w.Client) (sound : w.Sound) (m : Moves may R w w')
    (first : ∀ g, may g → g.isCall = true) : w'.Client := by
  have client (u : TaskId) : ∀ g ∈ w'.stack u, g.isClient = true := by
    cases sound.fate m.move u with
    | stays stack => exact stack ▸ h.places u
    | ends _ stack =>
      rw [stack]
      exact fun _ hg => nomatch hg
    | wakes _ stack => exact stack ▸ h.places u
    | @begins g _ stack _ _ source =>
      rw [stack]
      refine List.forall_mem_singleton.2 ?_
      rcases source with ⟨-, allowed⟩ | ⟨t, f, o, rest, begun, flow, w₂, s, found⟩
      · exact Frame.isClient_of_call (first g allowed)
      · rcases s.turn.change.opened (h.places t f (s.top ▸ List.mem_cons_self)) g
          (List.mem_of_getElem? found) with serves | ⟨s, grace, rfl⟩
        · exact client_of_serves serves
        · rfl
    | @goes f o rest begun flow w₂ s stack =>
      rw [stack]
      intro g hg
      rcases List.mem_append.1 hg with new | old
      · exact (h.leads s).client (h.places u f (s.top ▸ List.mem_cons_self)) g new
      · exact h.places u g (s.top ▸ List.mem_cons_of_mem f old)
  refine ⟨client, fun u => ?_, fun u refers => ?_, fun u c waits => ?_, fun u c tended waits => ?_,
    fun c t u other ht hu => ?_⟩
  · cases sound.fate m.move u with
    | stays stack => exact stack ▸ h.linked u
    | ends _ stack =>
      rw [stack]
      trivial
    | wakes _ stack => exact stack ▸ h.linked u
    | begins _ stack =>
      rw [stack]
      trivial
    | goes s stack =>
      rw [stack]
      exact (s.top ▸ h.linked u : Linked _).goes (h.leads s)
  · rcases sound.refers_cases m.move refers with old | ⟨new, g, stack, errand⟩
    · have before := h.errands u old
      cases sound.fate m.move u with
      | stays stack => exact stack ▸ before
      | ends _ stack =>
        rw [stack]
        exact fun _ hg => nomatch hg
      | wakes _ stack => exact stack ▸ before
      | begins new => exact absurd (sound.refers true u old) (Nat.not_lt.2 new)
      | goes s stack =>
        rw [stack]
        exact (s.top ▸ before : Errand _).goes (h.leads s)
    · rw [stack]
      intro g' hg'
      cases hg'
      exact serves_of_errand (errand rfl) (client u g (stack ▸ List.mem_cons_self))
  · cases sound.fate m.move u with
    | stays _ same => exact Nat.lt_of_lt_of_le (h.inside u c (same ▸ waits)) m.moved.cells
    | ends _ _ none =>
      rw [none] at waits
      cases waits
    | wakes _ _ _ none =>
      rw [none] at waits
      cases waits
    | begins _ _ none =>
      rw [none] at waits
      cases waits
    | @goes f o rest begun flow w₂ s stack =>
      have grown : w₂.loop.cells.length ≤ w'.loop.cells.length := (s.lands.aside.kept .none).cells
      obtain ⟨g, -, named | ⟨drops, v, known, rfl⟩ | made⟩ := strides_waits s waits
      · have plain := sound.names u f (s.top ▸ List.mem_cons_self) c named
        exact Nat.lt_of_lt_of_le (Loop.lt_of_kind? plain) m.moved.cells
      · exact Nat.lt_of_lt_of_le (sound.inside (sound.refers drops v known)) m.moved.cells
      · exact Nat.lt_of_lt_of_le made.inside grown
  · cases sound.fate m.move u with
    | stays stack same =>
      have before : w.loop.waits u = some c := same ▸ waits
      rw [m.moved.kind c (h.inside u c before)]
      exact h.plain u c (stack ▸ tended) before
    | ends _ _ none =>
      rw [none] at waits
      cases waits
    | wakes _ _ _ none =>
      rw [none] at waits
      cases waits
    | begins _ _ none =>
      rw [none] at waits
      cases waits
    | goes s stack => exact h.plain_goes sound s (stack ▸ tended) waits
  · have old {v : TaskId} (uses : w.Uses v c) : c < w.loop.cells.length := h.lt_of_uses sound uses
    rcases uses_cases sound m first ht other with mine | ⟨new, o, runs⟩
    · rcases uses_cases sound m first hu other with yours | ⟨new, -⟩
      · refine h.users c t u (fun v => ?_) mine yours
        rw [← m.moved.kind c (old mine)]
        exact other v
      · exact absurd (old mine) (Nat.not_lt.2 new)
    · rcases uses_cases sound m first hu other with yours | ⟨-, o', runs'⟩
      · exact absurd (old yours) (Nat.not_lt.2 new)
      · rw [runs] at runs'
        cases runs'
        rfl

end Client
end World
end LanguageClient
