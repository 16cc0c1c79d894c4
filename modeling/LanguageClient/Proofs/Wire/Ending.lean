import LanguageClient.Proofs.Wire.Progress

/-!
A finished stream is read to its end. Every reading takes bytes from the front of the stream, and
only one that leaves nothing gives up.
-/

namespace LanguageClient.Wire

open Text (Bytes)

namespace Stream

/-- What is left after so many bytes have been taken. -/
def skip (n : Nat) (s : Stream) : Stream := { s with buffer := s.buffer.drop n }

theorem skip_all (s : Stream) : s.skip s.buffer.length = { s with buffer := [] } := by
  simp [skip]

/-- A line is taken from the front of a stream, or the stream may still go on. -/
theorem readLine_cases (s : Stream) :
    (∃ n, s.readLine = .line (s.buffer.take n) (s.skip n) ∧ (n = 0 → s.buffer = [])) ∨
      (∃ ended n, s.readLine = .tooLong ended (s.skip n)) ∨ (s.readLine = .wait ∧ s.ended = false) := by
  unfold readLine
  split
  · next i _ =>
    split
    · exact .inr (.inl ⟨true, i + 1, rfl⟩)
    · exact .inl ⟨i + 1, rfl, fun none => nomatch none⟩
  · split
    · exact .inr (.inl ⟨false, s.buffer.length, by rw [skip_all]⟩)
    · split
      · exact .inl ⟨s.buffer.length, by rw [skip_all, List.take_length], List.length_eq_zero_iff.1⟩
      · next going => exact .inr (.inr ⟨rfl, by simpa using going⟩)

theorem readMarker_cases (s : Stream) :
    (∃ n, s.readMarker = .found (s.skip n)) ∨ (∃ n, s.readMarker = .skipped (s.skip n)) ∨
      s.readMarker = .missing (s.skip s.buffer.length) ∨ (s.readMarker = .wait ∧ s.ended = false) := by
  unfold readMarker
  split
  · next i _ =>
    split
    · exact .inr (.inl ⟨i, rfl⟩)
    · exact .inl ⟨_, rfl⟩
  · dsimp only
    split
    · exact .inr (.inl ⟨_, rfl⟩)
    · split
      · exact .inr (.inr (.inl (by rw [skip_all])))
      · next going => exact .inr (.inr (.inr ⟨rfl, by simpa using going⟩))

theorem readExactly_cases (n : Nat) (s : Stream) :
    s.readExactly n = .bytes (s.buffer.take n) (s.skip n) ∨
      s.readExactly n = .missing (s.skip s.buffer.length) ∨ (s.readExactly n = .wait ∧ s.ended = false) := by
  unfold readExactly
  split
  · exact .inl rfl
  split
  · exact .inr (.inl (by rw [skip_all]))
  · next going => exact .inr (.inr ⟨rfl, by simpa using going⟩)

end Stream

/-- A reading that is not the last one. -/
inductive Reading.Tells : Reading → Prop
  | message (v : Value) : Tells (.message v)
  | fault (f : FrameFault) : Tells (.fault f)

theorem Reading.tells_or_ended {r : Reading} (settled : ∀ p, r ≠ .wait p) : r.Tells ∨ r = .ended := by
  cases r with
  | message v => exact .inl (.message v)
  | fault f => exact .inl (.fault f)
  | ended => exact .inr rfl
  | wait p => exact absurd rfl (settled p)

theorem messageOf_tells (bytes : Bytes) : (messageOf bytes).Tells := by
  unfold messageOf
  split
  · exact .fault _
  split
  · exact .fault _
  · exact .message _
  · exact .fault _

theorem afterLine_on (headers : Entries) (size : Nat) (line : Bytes) :
    ∃ p, afterLine headers size line = .on p := by
  unfold afterLine
  dsimp only
  repeat' split
  all_goals exact ⟨_, rfl⟩

/-- What a step may do to a stream: it takes bytes from the front, waits only for bytes that can still
come, and ends a reading only where nothing is left. -/
structure Takes (s : Stream) (taken : Step × Stream) : Prop where
  rest : ∃ n, taken.2 = s.skip n
  waits : ∀ p, taken.1 = .out (.wait p) → s.ended = false
  ends : taken.1 = .out .ended → taken.2.buffer = []

namespace Takes

variable {s : Stream}

theorem on (p : Point) (n : Nat) : Takes s (.on p, s.skip n) :=
  ⟨⟨n, rfl⟩, fun _ same => (nomatch same), fun same => nomatch same⟩

theorem tells {r : Reading} (tells : r.Tells) (n : Nat) : Takes s (.out r, s.skip n) := by
  cases tells with
  | message v => exact ⟨⟨n, rfl⟩, fun _ same => (nomatch same), fun same => nomatch same⟩
  | fault f => exact ⟨⟨n, rfl⟩, fun _ same => (nomatch same), fun same => nomatch same⟩

theorem ended {n : Nat} (empty : (s.skip n).buffer = []) : Takes s (.out .ended, s.skip n) :=
  ⟨⟨n, rfl⟩, fun _ same => (nomatch same), fun _ => empty⟩

theorem wait (p : Point) (going : s.ended = false) : Takes s (.out (.wait p), s) :=
  ⟨⟨0, rfl⟩, fun _ _ => going, fun same => nomatch same⟩

end Takes

theorem step_takes (p : Point) (s : Stream) : Takes s (step p s) := by
  have all : (s.skip s.buffer.length).buffer = [] := by rw [s.skip_all]
  cases p with
  | header headers size line =>
    cases line with
    | some line =>
      obtain ⟨p, same⟩ := afterLine_on headers size line
      simp only [step, same]
      exact .on p 0
    | none =>
      rcases s.readLine_cases with ⟨n, read, filled⟩ | ⟨ended, n, read⟩ | ⟨read, going⟩
      · cases line : s.buffer.take n with
        | nil =>
          simp only [step, read, line]
          refine .ended ?_
          rcases List.take_eq_nil_iff.1 line with none | empty
          · rw [none]
            exact filled none
          · simp [Stream.skip, empty]
        | cons b bytes =>
          obtain ⟨p, same⟩ := afterLine_on headers size (b :: bytes)
          simp only [step, read, line, same]
          exact .on p n
      · simp only [step, read]
        exact .on _ n
      · simp only [step, read]
        exact .wait _ going
  | skipping fault =>
    rcases s.readMarker_cases with ⟨n, read⟩ | ⟨n, read⟩ | read | ⟨read, going⟩
    all_goals simp only [step, read]
    · exact .on _ n
    · exact .on _ n
    · exact .tells (.fault fault) _
    · exact .wait _ going
  | marked fault =>
    rcases s.readLine_cases with ⟨n, read, -⟩ | ⟨ended, n, read⟩ | ⟨read, going⟩
    all_goals simp only [step, read]
    · exact .on _ n
    · exact .tells (.fault fault) n
    · exact .wait _ going
  | body length =>
    rcases s.readExactly_cases length with read | read | ⟨read, going⟩
    all_goals simp only [step, read]
    · exact .tells (messageOf_tells _) length
    · exact .ended all
    · exact .wait _ going

/-- A reading from some point, told by its steps. -/
inductive Reads : Point → Stream → Reading → Stream → Prop
  | out {p : Point} {s s' : Stream} {r : Reading} (taken : step p s = (.out r, s')) : Reads p s r s'
  | on {p p' : Point} {s s' rest : Stream} {r : Reading} (taken : step p s = (.on p', s'))
      (later : Reads p' s' r rest) : Reads p s r rest

theorem reads_read (p : Point) (s : Stream) : Reads p s (read p s).1 (read p s).2 := by
  induction hn : cost p s using Nat.strongRecOn generalizing p s with
  | ind n ih =>
    subst hn
    cases taken : step p s with
    | mk next s' =>
      cases next with
      | out r =>
        rw [read_out taken]
        exact .out taken
      | on p' =>
        rw [read_on taken]
        exact .on taken (ih _ (step_cost_lt taken) p' s' rfl)

namespace Reads

variable {p : Point} {s rest : Stream} {r : Reading}

/-- Only the front of the stream is taken. -/
theorem skips (h : Reads p s r rest) : ∃ n, rest = s.skip n := by
  induction h with
  | @out p s s' r taken =>
    obtain ⟨n, left⟩ := (step_takes p s).rest
    exact ⟨n, by rw [← left, taken]⟩
  | @on p p' s s' rest r taken _ ih =>
    obtain ⟨n, left⟩ := (step_takes p s).rest
    obtain ⟨m, rfl⟩ := ih
    rw [taken] at left
    subst left
    exact ⟨n + m, by simp [Stream.skip, List.drop_drop]⟩

theorem length_le (h : Reads p s r rest) : rest.buffer.length ≤ s.buffer.length := by
  obtain ⟨n, rfl⟩ := h.skips
  simp [Stream.skip]

/-- A reading waits for no more than bytes that can still come. -/
theorem settled (h : Reads p s r rest) (finished : s.ended = true) (q : Point) : r ≠ .wait q := by
  induction h with
  | @out p s s' r taken =>
    rintro rfl
    have going := (step_takes p s).waits q (by rw [taken])
    rw [finished] at going
    cases going
  | @on p p' s s' rest r taken _ ih =>
    obtain ⟨n, left⟩ := (step_takes p s).rest
    rw [taken] at left
    subst left
    exact ih finished

/-- A reading comes to the end of the stream only where nothing is left. -/
theorem exhausted (h : Reads p s .ended rest) : rest.buffer = [] := by
  generalize same : Reading.ended = r at h
  induction h with
  | @out p s s' r taken =>
    subst same
    have empty := (step_takes p s).ends (by rw [taken])
    rwa [taken] at empty
  | on _ _ ih => exact ih same

end Reads

/-- The first step of a frame takes a byte, if there is one. -/
theorem step_start_shrinks {s : Stream} (finished : s.ended = true) (filled : s.buffer ≠ []) :
    ∃ p rest, step .start s = (.on p, rest) ∧ rest.buffer.length < s.buffer.length := by
  rcases s.readLine_cases with ⟨n, read, positive⟩ | ⟨ended, n, read⟩ | ⟨-, going⟩
  · cases line : s.buffer.take n with
    | nil =>
      rcases List.take_eq_nil_iff.1 line with none | empty
      · exact absurd (positive none) filled
      · exact absurd empty filled
    | cons b bytes =>
      rw [line] at read
      obtain ⟨p, same⟩ := afterLine_on [] 0 (b :: bytes)
      refine ⟨p, _, ?_, Stream.readLine_line_shrinks read⟩
      simp only [Point.start, step, read, same]
  · refine ⟨.skipping (.lineTooLong ended), _, ?_, Stream.readLine_tooLong_shrinks read⟩
    simp only [Point.start, step, read]
  · rw [finished] at going
    cases going

theorem Reads.shrinks {s rest : Stream} {r : Reading} (h : Reads .start s r rest)
    (finished : s.ended = true) (filled : s.buffer ≠ []) : rest.buffer.length < s.buffer.length := by
  obtain ⟨p, s', first, shorter⟩ := step_start_shrinks finished filled
  cases h with
  | out taken =>
    rw [first] at taken
    cases taken
  | on taken later =>
    rw [first] at taken
    cases taken
    exact Nat.lt_of_le_of_lt later.length_le shorter

section Finished

variable {s rest : Stream} {r : Reading}

/-- Reading a finished stream that holds something takes a byte at least; it never waits, and tells
the end only once it has taken everything. -/
theorem read_finished (finished : s.ended = true) (came : read .start s = (r, rest)) :
    (∃ n, rest = s.skip n) ∧ (s.buffer ≠ [] → rest.buffer.length < s.buffer.length) ∧
      (∀ p, r ≠ .wait p) ∧ (r = .ended → rest.buffer = []) := by
  have h := reads_read .start s
  rw [came] at h
  refine ⟨h.skips, h.shrinks finished, h.settled finished, ?_⟩
  rintro rfl
  exact h.exhausted

theorem read_empty (finished : s.ended = true) (empty : s.buffer = []) : (read .start s).1 = .ended := by
  obtain ⟨buffer, ended⟩ := s
  subst finished empty
  exact congrArg Prod.fst (read_out step_start_ended)

theorem readAll_tells (came : read .start s = (r, rest)) (tells : r.Tells) (count : Nat) :
    readAll (count + 1) s = r :: readAll count rest := by
  cases tells <;> simp [readAll, came]

theorem filled_of_tells (finished : s.ended = true) (came : read .start s = (r, rest))
    (tells : r.Tells) : s.buffer ≠ [] := by
  intro empty
  have ended := read_empty finished empty
  rw [came] at ended
  subst ended
  cases tells

/-- Reading on and on tells no more messages and faults than there are bytes, and then the end. -/
theorem readAll_finished (finished : s.ended = true) {count : Nat} (enough : s.buffer.length < count) :
    ∃ told, readAll count s = told ++ [.ended] ∧ told.length ≤ s.buffer.length ∧
      ∀ r ∈ told, r.Tells := by
  induction count generalizing s with
  | zero => exact absurd enough (Nat.not_lt_zero _)
  | succ count ih =>
    cases came : read .start s with
    | mk r rest =>
      obtain ⟨⟨n, left⟩, shrinks, settled, -⟩ := read_finished finished came
      rcases Reading.tells_or_ended settled with tells | rfl
      · have shorter := shrinks (filled_of_tells finished came tells)
        obtain ⟨told, all, short, each⟩ := ih (s := rest) (by rw [left]; exact finished) (by omega)
        refine ⟨r :: told, ?_, ?_, List.forall_mem_cons.2 ⟨tells, each⟩⟩
        · rw [readAll_tells came tells, all, List.cons_append]
        · rw [List.length_cons]
          omega
      · exact ⟨[], by simp [readAll, came], Nat.zero_le _, fun _ hr => nomatch hr⟩

end Finished

end LanguageClient.Wire
