import LanguageClient.Wire.Reader

/-!
Every step of the reader that goes on takes bytes from the stream or comes nearer to taking some,
so that reading has fuel enough and is told by its steps alone.
-/

namespace LanguageClient.Wire

open Text (Bytes)

namespace Point

/-- Steps that can be left before the next one that takes bytes. -/
def weight : Point → Nat
  | .header _ _ none => 1
  | .header _ _ (some _) => 2
  | .skipping _ => 1
  | .marked _ => 3
  | .body _ => 1

theorem weight_pos (p : Point) : 0 < p.weight := by
  unfold weight
  split <;> decide

theorem weight_le (p : Point) : p.weight ≤ 3 := by
  unfold weight
  split <;> decide

end Point

def cost (p : Point) (s : Stream) : Nat := 4 * s.buffer.length + p.weight

theorem cost_pos (p : Point) (s : Stream) : 0 < cost p s :=
  Nat.lt_of_lt_of_le p.weight_pos (Nat.le_add_left _ _)

theorem cost_le_enough (p : Point) (s : Stream) : cost p s ≤ enough s := by
  have := p.weight_le
  simp only [cost, enough]
  omega

theorem cost_lt_of_length_lt {p p' : Point} {s s' : Stream}
    (h : s'.buffer.length < s.buffer.length) : cost p' s' < cost p s := by
  have := p'.weight_le
  have := p.weight_pos
  simp only [cost]
  omega

theorem cost_lt_of_weight_lt {p p' : Point} {s s' : Stream}
    (hs : s'.buffer.length ≤ s.buffer.length) (hp : p'.weight < p.weight) :
    cost p' s' < cost p s := by
  simp only [cost]
  omega

theorem afterLine_weight {headers : Entries} {size : Nat} {bytes : Bytes} {p : Point}
    (h : afterLine headers size bytes = .on p) : p.weight = 1 := by
  unfold afterLine at h
  dsimp only at h
  repeat' split at h
  all_goals
    cases h
    rfl

namespace Stream

theorem offset?_some_lt {part : Bytes} (hp : part ≠ []) {bytes : Bytes} {start i : Nat}
    (h : offset? part start bytes = some i) : start ≤ i ∧ i < start + bytes.length := by
  induction bytes generalizing start with
  | nil => simp [offset?, hp] at h
  | cons b bytes ih =>
    rw [offset?] at h
    split at h
    · cases h
      simp
    · have := ih h
      simp only [List.length_cons]
      omega

theorem readLine_line_shrinks {s rest : Stream} {b : UInt8} {bytes : Bytes}
    (h : s.readLine = .line (b :: bytes) rest) : rest.buffer.length < s.buffer.length := by
  unfold readLine at h
  split at h
  · next found =>
    have inside := offset?_some_lt (by simp) found
    split at h
    · cases h
    · obtain ⟨-, rfl⟩ := LineRead.line.inj h
      simp only [List.length_drop]
      omega
  · split at h
    · cases h
    · split at h
      · obtain ⟨same, rfl⟩ := LineRead.line.inj h
        simp [same]
      · cases h

theorem readLine_tooLong_shrinks {s rest : Stream} {ended : Bool}
    (h : s.readLine = .tooLong ended rest) : rest.buffer.length < s.buffer.length := by
  unfold readLine at h
  split at h
  · next found =>
    have inside := offset?_some_lt (by simp) found
    split at h
    · cases h
      simp only [List.length_drop]
      omega
    · cases h
  · repeat' split at h
    all_goals cases h
    next long =>
    have := Nat.lt_of_le_of_lt (Nat.zero_le limit) long
    simpa using this

theorem readLine_line_length_le {s rest : Stream} {bytes : Bytes}
    (h : s.readLine = .line bytes rest) : rest.buffer.length ≤ s.buffer.length := by
  unfold readLine at h
  repeat' split at h
  all_goals cases h
  all_goals simp

theorem readMarker_found_shrinks {s rest : Stream} (h : s.readMarker = .found rest) :
    rest.buffer.length < s.buffer.length := by
  unfold readMarker at h
  split at h
  · next found =>
    have inside := offset?_some_lt (by decide) found
    have : 0 < marker.length := by decide
    split at h
    · cases h
    · cases h
      simp only [List.length_drop]
      omega
  · dsimp only at h
    repeat' split at h
    all_goals cases h

theorem readMarker_skipped_shrinks {s rest : Stream} (h : s.readMarker = .skipped rest) :
    rest.buffer.length < s.buffer.length := by
  unfold readMarker at h
  split at h
  · next found =>
    have inside := offset?_some_lt (by decide) found
    split at h
    · cases h
      simp only [List.length_drop]
      omega
    · cases h
  · have width : marker.length = 15 := rfl
    dsimp only at h
    split at h
    · cases h
      simp only [List.length_drop]
      omega
    · split at h
      all_goals cases h

end Stream

theorem step_cost_lt {p p' : Point} {s s' : Stream} (h : step p s = (.on p', s')) :
    cost p' s' < cost p s := by
  unfold step at h
  split at h
  · next headers size line =>
    obtain ⟨same, rfl⟩ := Prod.mk.inj h
    refine cost_lt_of_weight_lt (Nat.le_refl _) ?_
    rw [afterLine_weight same]
    exact Nat.one_lt_two
  · split at h
    · cases h
    · next read =>
      obtain ⟨-, rfl⟩ := Prod.mk.inj h
      exact cost_lt_of_length_lt (Stream.readLine_tooLong_shrinks read)
    · cases h
    · next bytes rest nonempty read =>
      obtain ⟨-, rfl⟩ := Prod.mk.inj h
      cases bytes with
      | nil => exact absurd rfl nonempty
      | cons b bytes => exact cost_lt_of_length_lt (Stream.readLine_line_shrinks read)
  · split at h
    · cases h
    · next read =>
      cases h
      exact cost_lt_of_length_lt (Stream.readMarker_skipped_shrinks read)
    · cases h
    · next read =>
      cases h
      exact cost_lt_of_length_lt (Stream.readMarker_found_shrinks read)
  · split at h
    · cases h
    · cases h
    · next read =>
      cases h
      exact cost_lt_of_weight_lt (Stream.readLine_line_length_le read) (Nat.lt_succ_self 2)
  · repeat' split at h
    all_goals cases h

theorem run_eq_of_cost_le {p : Point} {s : Stream} {fuel fuel' : Nat} (h : cost p s ≤ fuel)
    (h' : cost p s ≤ fuel') : run fuel p s = run fuel' p s := by
  induction fuel generalizing p s fuel' with
  | zero => exact absurd (cost_pos p s) (Nat.not_lt.2 h)
  | succ fuel ih =>
    cases fuel' with
    | zero => exact absurd (cost_pos p s) (Nat.not_lt.2 h')
    | succ fuel' =>
      cases hs : step p s with
      | mk next s' =>
        cases next with
        | out r => rw [run_out hs, run_out hs]
        | on p' =>
          have less := step_cost_lt hs
          rw [run_on hs, run_on hs]
          exact ih (by omega) (by omega)

/-- Reading goes the way of its steps, whatever the fuel. -/
theorem read_on {p p' : Point} {s s' : Stream} (h : step p s = (.on p', s')) :
    read p s = read p' s' := by
  have less := step_cost_lt h
  have fits := cost_le_enough p s
  unfold read
  rw [run_eq_of_cost_le fits (Nat.le_add_right_of_le fits), run_on h]
  exact run_eq_of_cost_le (by omega) (cost_le_enough p' s')

theorem read_out {p : Point} {s s' : Stream} {r : Reading} (h : step p s = (.out r, s')) :
    read p s = (r, s') :=
  run_out h

end LanguageClient.Wire
