import LanguageClient.Proofs.Bridge.Slot
import LanguageClient.Proofs.World.Calls
import LanguageClient.Proofs.Json.Reading

/-!
What the bridge answers. A posted snapshot is taken exactly when the body is the text of a mapping whose
data model counts as true, and then it is forwarded before the request is answered; only a forward that has
gone well leaves it in the slot. Every other request is answered at once and changes nothing.
-/

namespace LanguageClient

open Schedule

namespace Bridge

variable {r : Request} {members : Entries} {p : Payload} {reason : String} {e : Failure}

/-- The body is the text of a mapping, in the character set it is said to be in. -/
def Posted (r : Request) (members : Entries) : Prop :=
  ∃ set text, Charset.ofName? r.charset = some set ∧ set.decode? r.body = some text ∧
    Json.read? text = some (.map members)

theorem Posted.body_ne_nil (h : Posted r members) : r.body ≠ [] := by
  obtain ⟨set, text, -, decoded, read⟩ := h
  intro empty
  rw [empty] at decoded
  have nothing : text = [] := by cases set <;> exact (Option.some.inj decoded).symm
  rw [nothing] at read
  cases read

theorem Posted.unique {members' : Entries} (h : Posted r members) (h' : Posted r members') :
    members = members' := by
  obtain ⟨set, text, known, decoded, read⟩ := h
  obtain ⟨set', text', known', decoded', read'⟩ := h'
  cases known.symm.trans known'
  cases decoded.symm.trans decoded'
  cases read.symm.trans read'
  rfl

/-- What is made of a body. -/
theorem read_cases (r : Request) :
    (r.body ≠ [] ∧ Charset.ofName? r.charset = none ∧ read r = .error (.unknownCharset r.charset)) ∨
      (r.body = [] ∨ Charset.ofName? r.charset ≠ none) ∧
        ((∃ members, members ≠ [] ∧ Posted r members ∧ read r = .ok (ofMembers members)) ∨
          (∀ members, Posted r members → members = []) ∧ read r = .ok missingBody) := by
  by_cases empty : r.body = []
  · exact .inr ⟨.inl empty, .inr ⟨fun members posted => absurd empty posted.body_ne_nil, read_empty empty⟩⟩
  have filled : r.body.isEmpty = false := by simpa using empty
  cases known : Charset.ofName? r.charset with
  | none => exact .inl ⟨empty, rfl, by simp [read, filled, known]⟩
  | some set =>
    refine .inr ⟨.inr (Option.some_ne_none set), ?_⟩
    rw [read, filled, if_neg Bool.false_ne_true, known]
    dsimp only
    split
    · next m rest read_ =>
      obtain ⟨text, decoded, reads⟩ := Option.bind_eq_some_iff.1 read_
      exact .inl ⟨_, List.cons_ne_nil m rest, ⟨set, text, known, decoded, reads⟩, rfl⟩
    · next other =>
      refine .inr ⟨fun members posted => ?_, rfl⟩
      obtain ⟨set', text, known', decoded, reads⟩ := posted
      cases known.symm.trans known'
      cases members with
      | nil => rfl
      | cons m rest => exact absurd (by rw [decoded, Option.bind_some, reads]) (other m rest)

/-- The version that goes with a data model, if there is one, as a text. -/
def versionOf (members : Entries) : Option String :=
  ((Entries.field? "Version" members).filter (· ≠ .null)).map Value.display

/-- A data model that counts as true is taken, and with anything else there is nothing to take. -/
theorem ofMembers_cases (members : Entries) :
    (∃ d, Entries.field? "DataModel" members = some d ∧ d.truthy = true ∧
      ofMembers members = .payload ⟨d, versionOf members⟩) ∨
    (∀ d, Entries.field? "DataModel" members = some d → d.truthy = false) ∧
      ofMembers members = missingModel := by
  unfold ofMembers versionOf
  cases found : Entries.field? "DataModel" members with
  | none => exact .inr ⟨nofun, rfl⟩
  | some d =>
    cases counts : d.truthy with
    | false => exact .inr ⟨fun _ same => Option.some.inj same ▸ counts, by simp [counts]⟩
    | true =>
      refine .inl ⟨d, rfl, counts, ?_⟩
      cases version : Entries.field? "Version" members with
      | none => simp [counts]
      | some v => cases v <;> simp [counts]

theorem read_eq_error : read r = .error e ↔
    r.body ≠ [] ∧ Charset.ofName? r.charset = none ∧ e = .unknownCharset r.charset := by
  rcases read_cases r with ⟨filled, unknown, same⟩ | ⟨known, ⟨members, -, -, same⟩ | ⟨-, same⟩⟩
  · simp [same, filled, unknown, eq_comm]
  all_goals
    rw [same]
    refine ⟨nofun, fun ⟨filled, unknown, _⟩ => ?_⟩
    rcases known with empty | known
    · exact absurd empty filled
    · exact absurd unknown known

theorem read_eq_payload : read r = .ok (.payload p) ↔ ∃ members, Posted r members ∧
    Entries.field? "DataModel" members = some p.datamodel ∧ p.datamodel.truthy = true ∧
      p.version = versionOf members := by
  have taken {members : Entries} {d : Value} (found : Entries.field? "DataModel" members = some d)
      (counts : d.truthy = true) : members ≠ [] ∧ ofMembers members = .payload ⟨d, versionOf members⟩ := by
    refine ⟨fun empty => ?_, ?_⟩
    · rw [empty] at found
      cases found
    · rcases ofMembers_cases members with ⟨d', found', -, same⟩ | ⟨none, -⟩
      · cases found.symm.trans found'
        exact same
      · cases (none d found).symm.trans counts
  constructor
  · intro same
    rcases read_cases r with ⟨-, -, other⟩ | ⟨-, ⟨members, -, posted, made⟩ | ⟨-, other⟩⟩
    · cases same.symm.trans other
    · rcases ofMembers_cases members with ⟨d, found, counts, holds⟩ | ⟨-, holds⟩
      · cases (same.symm.trans made).trans (congrArg Except.ok holds)
        exact ⟨members, posted, found, counts, rfl⟩
      · cases (same.symm.trans made).trans (congrArg Except.ok holds)
    · cases same.symm.trans other
  · rintro ⟨members, posted, found, counts, version⟩
    obtain ⟨filled, holds⟩ := taken found counts
    have ⟨set, _, known, _⟩ := posted
    rcases read_cases r with ⟨-, unknown, -⟩ | ⟨-, ⟨members', -, posted', made⟩ | ⟨none, -⟩⟩
    · cases unknown.symm.trans known
    · rw [made, ← posted.unique posted', holds, ← version]
    · exact absurd (none members posted) filled

theorem read_eq_rejected : read r = .ok (.rejected reason) ↔
    (r.body = [] ∨ Charset.ofName? r.charset ≠ none) ∧
      ((reason = "Missing JSON" ∧ ∀ members, Posted r members → members = []) ∨
        reason = "Missing body.DataModel" ∧ ∃ members, members ≠ [] ∧ Posted r members ∧
          ∀ d, Entries.field? "DataModel" members = some d → d.truthy = false) := by
  constructor
  · intro same
    rcases read_cases r with ⟨-, -, other⟩ | ⟨known, ⟨members, filled, posted, made⟩ | ⟨none, made⟩⟩
    · cases same.symm.trans other
    · rcases ofMembers_cases members with ⟨d, -, -, holds⟩ | ⟨none, holds⟩
      · cases (same.symm.trans made).trans (congrArg Except.ok holds)
      · cases (same.symm.trans made).trans (congrArg Except.ok holds)
        exact ⟨known, .inr ⟨rfl, members, filled, posted, none⟩⟩
    · cases same.symm.trans made
      exact ⟨known, .inl ⟨rfl, none⟩⟩
  · rintro ⟨known, ⟨rfl, none⟩ | ⟨rfl, members, filled, posted, none⟩⟩
    · rcases read_cases r with ⟨filled, unknown, -⟩ | ⟨-, ⟨members, filled, posted, -⟩ | ⟨-, made⟩⟩
      · exact absurd unknown (known.resolve_left filled)
      · exact absurd (none members posted) filled
      · exact made
    · rcases read_cases r with ⟨-, unknown, -⟩ | ⟨-, ⟨members', -, posted', made⟩ | ⟨none', -⟩⟩
      · exact absurd unknown (known.resolve_left posted.body_ne_nil)
      · rw [made, ← posted.unique posted']
        rcases ofMembers_cases members with ⟨d, found, counts, -⟩ | ⟨-, holds⟩
        · cases (none d found).symm.trans counts
        · rw [holds]
          rfl
      · exact absurd (none' members posted) filled

/-- The text of a rejection says why. -/
theorem Response.rejected_inj {reason reason' : String} (h : rejected reason = rejected reason') :
    reason = reason' := by
  let value (reason : String) : Value := .record [("success", .bool false), ("reason", .text reason)]
  have faithful (reason : String) : Json.Faithful (value reason) := by
    refine .record _ ?_ (by simp)
    exact List.forall_mem_cons.2 ⟨.bool false, List.forall_mem_singleton.2 (.text reason)⟩
  have content := Option.some.inj (congrArg Response.content h)
  have text : Json.render Json.spaced (value reason) = Json.render Json.spaced (value reason') :=
    (Prod.mk.inj content).2
  have same : value reason = value reason' := by
    have read := Json.parse?_render Json.legible_spaced (faithful reason)
    rw [text, Json.parse?_render Json.legible_spaced (faithful reason')] at read
    exact (Option.some.inj read).symm
  simpa [value, Value.record] using same

/-- What is shown of a snapshot that was taken is its data model: a text as it is, and what is no text in
a text that is read as the same again. -/
theorem lastText_of_read (taken : read r = .ok (.payload p)) :
    (∃ s, p.datamodel = .text s ∧ lastText (some p) = ⟨200, some ("text/plain", s)⟩) ∨
      ∃ text, lastText (some p) = ⟨200, some ("application/json", text)⟩ ∧
        Json.parse? text = some p.datamodel := by
  obtain ⟨members, ⟨set, text, -, -, reads⟩, found, -⟩ := read_eq_payload.1 taken
  have faithful : Json.Faithful p.datamodel := (Json.faithful_read? reads).field found
  cases model : p.datamodel with
  | text s => exact .inl ⟨s, rfl, by rw [lastText, model]⟩
  | _ =>
    rw [model] at faithful
    refine .inr ⟨_, ?_, Json.parse?_render Json.legible_spaced faithful⟩
    rw [lastText, model]
    rfl

end Bridge

namespace World

open Bridge (Request Payload Response)

variable {R : CellId → Prop} {t : TaskId} {w w' after : World} {m : Moment} {ms : List Moment}
variable {request : Request} {p : Payload} {o : Outcome Result}

/-- A request that a snapshot is taken from. -/
structure Takes (limit : Int) (request : Request) (p : Payload) : Prop where
  route : request.route = .ok .update
  fits : Bridge.tooLarge limit request.body = false
  reads : Bridge.read request = .ok (.payload p)

/-- What a request comes to in a world, and what it leaves of it. -/
inductive Meets (request : Request) (w : World) : Outcome Result → World → Prop
  | refused {status : Nat} (route : request.route = .error status) :
    Meets request w (.ok (.response (.bare status))) w
  | shows (route : request.route = .ok .last) :
    Meets request w (.ok (.response (Bridge.lastText w.bridge.last))) w
  | large (route : request.route = .ok .update)
    (large : Bridge.tooLarge w.bridge.bodyLimit request.body = true) :
    Meets request w (.ok (.response (.bare 413))) w
  | unread {e : Failure} (route : request.route = .ok .update)
    (fits : Bridge.tooLarge w.bridge.bodyLimit request.body = false)
    (reads : Bridge.read request = .error e) : Meets request w (.error e) w
  | rejected {reason : String} (route : request.route = .ok .update)
    (fits : Bridge.tooLarge w.bridge.bodyLimit request.body = false)
    (reads : Bridge.read request = .ok (.rejected reason)) :
    Meets request w (.ok (.response (.rejected reason))) w
  | unsent {p : Payload} (takes : Takes w.bridge.bodyLimit request p) (idle : w.active? = none) :
    Meets request w (.ok (.response .accepted))
      (w.showError (Failure.forwarding updateDataModel "no running session").message)
  | forwarded {p : Payload} (takes : Takes w.bridge.bodyLimit request p) :
    Meets request w (.ok (.response .accepted)) (w.setBridge fun b => { b with last := some p })
  | unforwarded {p : Payload} {e : Failure} (takes : Takes w.bridge.bodyLimit request p)
    (own : e.isOwn = true) : Meets request w (.ok (.response .accepted)) (w.showError e.message)
  | failed {p : Payload} {e : Failure} (takes : Takes w.bridge.bodyLimit request p)
    (foreign : e.isOwn = false) : Meets request w (.error e) w
  | withdrawn : Meets request w (.error .cancelled) w

/-- A request is answered at once, or its snapshot goes to the active session. -/
theorem receive_cases (request : Request) (w : World) :
    (∃ o after, w.receive request = (.done o, after) ∧ Meets request w o after) ∨
      ∃ p s, Takes w.bridge.bodyLimit request p ∧ w.active? = some s ∧ w.receive request =
        (.call (.session s (.notify updateDataModel p.params)) (.workspace (.forwarded p)), w) := by
  cases routed : request.route with
  | error status => exact .inl ⟨_, _, by rw [receive, routed]; rfl, .refused routed⟩
  | ok route =>
    cases route with
    | last => exact .inl ⟨_, _, by rw [receive, routed]; rfl, .shows routed⟩
    | update =>
      cases large : Bridge.tooLarge w.workspace.bridge.bodyLimit request.body with
      | true => exact .inl ⟨.ok (.response (.bare 413)), w, by simp [receive, routed, large, answered],
        .large routed large⟩
      | false =>
        cases reads : Bridge.read request with
        | error e =>
          exact .inl ⟨.error e, w, by simp [receive, routed, large, reads, fail], .unread routed large reads⟩
        | ok reading =>
          cases reading with
          | rejected reason =>
            exact .inl ⟨.ok (.response (.rejected reason)), w, by simp [receive, routed, large, reads, answered],
              .rejected routed large reads⟩
          | payload p =>
            have takes : Takes w.bridge.bodyLimit request p := ⟨routed, large, reads⟩
            have goes : w.receive request = w.forward p := by simp [receive, routed, large, reads]
            cases active : w.active? with
            | none => exact .inl ⟨_, _, by rw [goes, forward, active]; rfl, .unsent takes active⟩
            | some s => exact .inr ⟨p, s, takes, rfl, by rw [goes, forward, active]⟩

/-- A forward that has ended is answered, unless what it has failed with is not for the user. -/
theorem forwarded_meets (takes : Takes w.bridge.bodyLimit request p) (o : Outcome Result) :
    ∃ o' after, w.forwarded p o = (.done o', after) ∧ Meets request w o' after := by
  cases o with
  | ok r => exact ⟨_, _, rfl, .forwarded takes⟩
  | error e =>
    cases own : e.isOwn with
    | true =>
      exact ⟨.ok (.response .accepted), w.showError e.message, by simp [forwarded, own, answered],
        .unforwarded takes own⟩
    | false => exact ⟨.error e, w, by simp [forwarded, own, fail], .failed takes own⟩

/-- In its last step a task answers a request. -/
def Concludes (request : Request) (t : TaskId) (o : Outcome Result) (m : Moment) : Prop :=
  ∃ f o' after, m.Runs t f o' [] ∧ { m.world with current := none }.resume t f o' = (.done o, after) ∧
    Meets request { m.world with current := none } o after

/-- How far a request has come. -/
inductive Pursues (limit : Int) (request : Request) (ms : List Moment) (w : World) (t : TaskId) : Prop
  | waits (unturned : w.Unturned t (.workspace (.receive request)))
  | turn {o : Outcome Result} (stack : w.stack t = [.workspace (.receive request)])
    (runs : w.current = some (t, o)) (called : o = .error .cancelled ∨ ∃ r, o = .ok r)
  | forwards {p : Payload} (takes : Takes limit request p)
    (last : (w.stack t).getLast? = some (.workspace (.forwarded p)))
  | returned {o : Outcome Result} (concluded : ∃ m ∈ ms, Concludes request t o m) (returned : w.Returned t o)

section Move

variable (sound : m.world.Sound) (moves : Moves m.Begins R m.world w')

include sound moves in
/-- A task that has answered is over. -/
theorem Pursues.of_done {limit : Int} {f : Frame} {o' : Outcome Result} (runs : m.Runs t f o' [])
    (done : { m.world with current := none }.resume t f o' = (.done o, after))
    (meets : Meets request { m.world with current := none } o after) :
    Pursues limit request (ms ++ [m]) w' t := by
  obtain ⟨stack, next⟩ := sound.runs_on moves.move runs
  rw [done] at stack next
  exact .returned ⟨m, List.mem_append_right _ (List.mem_singleton_self m), f, o', after, runs, done, meets⟩
    (.inl ⟨next.1, stack⟩)

include sound moves in
theorem Pursues.next {limit : Int} (h : Pursues limit request ms m.world t)
    (same : m.world.bridge.bodyLimit = limit) (inside : t < m.world.loop.tasks.length) :
    Pursues limit request (ms ++ [m]) w' t := by
  cases h with
  | waits unturned =>
    rcases unturned.next sound moves.move inside with later | ⟨stack, o, runs, called⟩
    · exact .waits later
    · exact .turn stack runs called
  | turn stack runs called =>
    have runs : m.Runs t (.workspace (.receive request)) _ [] := ⟨runs, stack⟩
    rcases called with rfl | ⟨r, rfl⟩
    · exact .of_done sound moves runs rfl .withdrawn
    · rcases receive_cases request { m.world with current := none } with
        ⟨o, after, done, meets⟩ | ⟨p, s, takes, -, calls⟩
      · exact .of_done sound moves runs done meets
      · obtain ⟨stack, -⟩ := sound.runs_on moves.move runs
        have calls : ({ m.world with current := none }.resume t (.workspace (.receive request)) (.ok r)).1 =
            .call (.session s (.notify updateDataModel p.params)) (.workspace (.forwarded p)) :=
          congrArg Prod.fst calls
        rw [calls] at stack
        exact .forwards (same ▸ takes) (by rw [stack]; rfl)
  | forwards takes last =>
    rcases sound.last_cases moves.move last with kept | ⟨o, begun, flow, w₂, strides, -⟩
    · exact .forwards takes kept
    · subst same
      obtain ⟨o', after, done, meets⟩ :=
        forwarded_meets (w := { m.world with current := none }) takes o
      exact .of_done sound moves ⟨strides.runs, strides.top⟩ done meets
  | returned concluded returned =>
    obtain ⟨m', member, concluded⟩ := concluded
    exact .returned ⟨m', List.mem_append_left _ member, concluded⟩ (.inr (returned.later moves inside))

end Move

variable {config : Config} {settings : Settings} {roots : List Root} {launcher : Roster.Launcher}
variable {ws : Workspace} {shell : Shell} {plans : List Backend.Plan}

theorem bodyLimit_eq (made : Workspace.make config settings roots launcher = .ok ws)
    (path : Path (start ws shell plans) ms w) (listens : ∀ a ∈ acts ms, ∀ k owner, a ≠ .listen k owner) :
    w.bridge.bodyLimit = ws.bridge.bodyLimit := by
  obtain ⟨running, same⟩ := bridge_eq made path listens
  rw [same]

theorem Path.pursues (made : Workspace.make config settings roots launcher = .ok ws)
    (path : Path (start ws shell plans) ms w) (listens : ∀ a ∈ acts ms, ∀ k owner, a ≠ .listen k owner) :
    Called ms t (.receive request) → t < w.loop.tasks.length ∧
      Pursues ws.bridge.bodyLimit request ms w t := by
  obtain ⟨-, -, -, reports⟩ := Workspace.of_make made
  refine path.keeps (I := fun ms w => (∀ a ∈ acts ms, ∀ k owner, a ≠ .listen k owner) →
    Called ms t (.receive request) → t < w.loop.tasks.length ∧ Pursues ws.bridge.bodyLimit request ms w t)
    (fun _ ⟨_, member, _⟩ => nomatch member) (fun ms m w' path ih goes listens called => ?_) listens
  rw [acts_next] at listens
  have before := fun a ha => listens a (List.mem_append_left _ ha)
  have sound := path.sound (unused_start reports).sound before
  have moves := goes.kept sound fun a ha => listens a (List.mem_append_right _ (by simp [ha]))
  rcases called_next.1 called with old | ⟨act, rfl⟩
  · obtain ⟨inside, pursues⟩ := ih before old
    exact ⟨Nat.lt_of_lt_of_le inside moves.moved.tasks,
      pursues.next sound moves (bodyLimit_eq made path before) inside⟩
  · exact ⟨(goes.call act).2.2 ▸ Nat.lt_succ_self _,
      .waits (sound.unturned_of_call moves.move goes act)⟩

/-- Whatever else is done, a request that has ended was answered in the last step of its task. -/
theorem requests_answered (made : Workspace.make config settings roots launcher = .ok ws)
    (path : Path (start ws shell plans) ms w) (listens : ∀ a ∈ acts ms, ∀ k owner, a ≠ .listen k owner)
    (called : Called ms t (.receive request))
    (settled : w.loop.outcome? (w.loop.taskCell t) = some o) : ∃ m ∈ ms, Concludes request t o m := by
  obtain ⟨-, -, -, reports⟩ := Workspace.of_make made
  have sound := path.sound (unused_start reports).sound listens
  have empty := sound.over_of_done (Option.isSome_iff_exists.2 ⟨o, settled⟩)
  cases (path.pursues made listens called).2 with
  | waits unturned => exact absurd (unturned.stack.symm.trans empty) (List.cons_ne_nil _ _)
  | turn stack => exact absurd (stack.symm.trans empty) (List.cons_ne_nil _ _)
  | forwards _ last =>
    rw [empty] at last
    cases last
  | returned concluded returned => exact sound.returned_unique returned settled ▸ concluded

/-- An update that fits is accepted if a snapshot is taken from it, and rejected with the reason if there is
none, whatever has become of the forward. -/
theorem update_answered (made : Workspace.make config settings roots launcher = .ok ws)
    (path : Path (start ws shell plans) ms w) (listens : ∀ a ∈ acts ms, ∀ k owner, a ≠ .listen k owner)
    (called : Called ms t (.receive request)) (route : request.route = .ok .update)
    (fits : Bridge.tooLarge ws.bridge.bodyLimit request.body = false) {response : Response}
    (settled : w.loop.outcome? (w.loop.taskCell t) = some (.ok (.response response))) :
    (response = .accepted ↔ ∃ p, Bridge.read request = .ok (.payload p)) ∧
      ∀ reason, response = .rejected reason ↔ Bridge.read request = .ok (.rejected reason) := by
  obtain ⟨m, member, f, o, after, -, -, meets⟩ := requests_answered made path listens called settled
  obtain ⟨before, rest, rfl, earlier⟩ := path.split member
  have limit : m.world.bridge.bodyLimit = ws.bridge.bodyLimit :=
    bodyLimit_eq made earlier fun a ha => listens a (by
      rw [acts, List.filterMap_append]
      exact List.mem_append_left _ ha)
  have apart (reason : String) : Response.accepted ≠ .rejected reason := by
    intro same
    cases congrArg Response.status same
  generalize outcome : (Except.ok (Result.response response) : Outcome Result) = o' at meets
  have taken {p : Payload} (takes : Takes m.world.bridge.bodyLimit request p)
      (same : response = .accepted) :
      (response = .accepted ↔ ∃ p, Bridge.read request = .ok (.payload p)) ∧
        ∀ reason, response = .rejected reason ↔ Bridge.read request = .ok (.rejected reason) := by
    refine ⟨⟨fun _ => ⟨p, takes.reads⟩, fun _ => same⟩, fun reason => ⟨fun other => ?_, fun reads => ?_⟩⟩
    · exact absurd (same.symm.trans other) (apart reason)
    · cases takes.reads.symm.trans reads
  have same {response' : Response}
      (h : (Except.ok (Result.response response) : Outcome Result) = .ok (.response response')) :
      response = response' := Result.response.inj (Except.ok.inj h)
  cases meets with
  | refused other | shows other => cases route.symm.trans other
  | large _ large =>
    have large : Bridge.tooLarge m.world.bridge.bodyLimit request.body = true := large
    rw [limit, fits] at large
    cases large
  | rejected _ _ reads =>
    obtain rfl := same outcome
    refine ⟨⟨fun accepted => absurd accepted.symm (apart _), fun accepted => ?_⟩, fun reason => ?_⟩
    · obtain ⟨p, taken⟩ := accepted
      cases reads.symm.trans taken
    · refine ⟨fun other => Bridge.Response.rejected_inj other ▸ reads, fun reads' => ?_⟩
      cases reads.symm.trans reads'
      rfl
  | unsent takes | forwarded takes | unforwarded takes => exact taken takes (same outcome)
  | unread | failed | withdrawn => cases outcome

/-- Who asks for the last snapshot is shown the one that was accepted last when the question was answered. -/
theorem last_answered (made : Workspace.make config settings roots launcher = .ok ws)
    (path : Path (start ws shell plans) ms w) (listens : ∀ a ∈ acts ms, ∀ k owner, a ≠ .listen k owner)
    (called : Called ms t (.receive request)) (route : request.route = .ok .last) {r : Result}
    (settled : w.loop.outcome? (w.loop.taskCell t) = some (.ok r)) :
    ∃ before m after, ms = before ++ m :: after ∧ (∃ o, m.world.current = some (t, o)) ∧
      r = .response (Bridge.lastText (before.filterMap Moment.accepted?).getLast?) := by
  obtain ⟨m, member, f, o, left, runs, -, meets⟩ := requests_answered made path listens called settled
  obtain ⟨before, after, rfl, earlier⟩ := path.split member
  refine ⟨before, m, after, rfl, ⟨o, runs.1⟩, ?_⟩
  obtain ⟨running, same⟩ := bridge_eq made earlier fun a ha => listens a (by
    rw [acts, List.filterMap_append]
    exact List.mem_append_left _ ha)
  have last : m.world.bridge.last = (before.filterMap Moment.accepted?).getLast? :=
    congrArg Bridge.last same
  generalize outcome : (Except.ok r : Outcome Result) = o' at meets
  have takes {p : Payload} (takes : Takes m.world.bridge.bodyLimit request p) : False := by
    cases takes.route.symm.trans route
  cases meets with
  | shows =>
    rw [← last]
    exact Except.ok.inj outcome
  | refused other | large other | rejected other => cases route.symm.trans other
  | unsent taken | forwarded taken | unforwarded taken => exact (takes taken).elim
  | unread | failed | withdrawn => cases outcome

end World
end LanguageClient
