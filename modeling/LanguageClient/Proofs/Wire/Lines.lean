import LanguageClient.Wire.Stream
import Mathlib.Data.List.Basic

/-!
Where a line ends in a stream, and where the marker of a header is found behind other bytes.
-/

namespace LanguageClient.Wire

open Text (Bytes)

/-- Nowhere in `junk`, followed by `rest`, does `part` begin. -/
def Clear (part junk rest : Bytes) : Prop :=
  ∀ tail, tail <:+ junk → tail ≠ [] → ¬ part <+: tail ++ rest

theorem clear_nil (part rest : Bytes) : Clear part [] rest :=
  fun _ suffix nonempty => absurd (List.suffix_nil.1 suffix) nonempty

theorem clear_cons {part junk rest : Bytes} {b : UInt8} :
    Clear part (b :: junk) rest ↔ ¬ part <+: b :: (junk ++ rest) ∧ Clear part junk rest := by
  constructor
  · intro clear
    refine ⟨clear (b :: junk) List.suffix_rfl (List.cons_ne_nil _ _), ?_⟩
    intro tail suffix nonempty
    exact clear tail (suffix.trans (List.suffix_cons b junk)) nonempty
  · rintro ⟨here, later⟩ tail suffix nonempty
    rcases List.suffix_cons_iff.1 suffix with rfl | suffix
    · exact here
    · exact later tail suffix nonempty

instance decidableClear (part rest : Bytes) : (junk : Bytes) → Decidable (Clear part junk rest)
  | [] => .isTrue (clear_nil part rest)
  | _ :: junk =>
    have := decidableClear part rest junk
    decidable_of_decidable_of_iff clear_cons.symm

theorem clear_append {part first second rest : Bytes} :
    Clear part (first ++ second) rest ↔
      Clear part first (second ++ rest) ∧ Clear part second rest := by
  induction first with
  | nil => simp [clear_nil]
  | cons b first ih =>
    rw [List.cons_append, clear_cons, clear_cons, ih, List.append_assoc, and_assoc]

theorem clear_flatten {part : Bytes} {lines : List Bytes}
    (each : ∀ line ∈ lines, ∀ rest, Clear part line rest) (rest : Bytes) :
    Clear part lines.flatten rest := by
  induction lines with
  | nil => exact clear_nil part rest
  | cons line lines ih =>
    obtain ⟨here, later⟩ := List.forall_mem_cons.1 each
    exact clear_append.2 ⟨here _, ih later⟩

/-- What follows a line cannot take part in a marker that begins in the line. -/
theorem clear_of_boundary {part junk rest : Bytes} {b : UInt8} (hb : b ∉ part)
    (clear : ∀ tail, tail <:+ junk → ¬ part <+: tail) : Clear part (junk ++ [b]) rest := by
  intro tail suffix nonempty starts
  rcases List.suffix_concat_iff.1 suffix with rfl | ⟨front, rfl, inside⟩
  · exact nonempty rfl
  · rw [List.append_assoc] at starts
    have short : part.length ≤ front.length := by
      rcases Nat.lt_or_ge front.length part.length with longer | short
      · have reach : b = part[front.length] := by
          have := starts.getElem longer
          simpa using this.symm
        exact absurd (reach ▸ List.getElem_mem longer) hb
      · exact short
    exact clear front inside (List.prefix_of_prefix_length_le starts (List.prefix_append _ _) short)

namespace Stream

theorem offset?_clear {part junk rest : Bytes} (h : Clear part junk rest) (index : Nat) :
    offset? part index (junk ++ rest) = offset? part (index + junk.length) rest := by
  induction junk generalizing index with
  | nil => rfl
  | cons b junk ih =>
    obtain ⟨here, later⟩ := clear_cons.1 h
    have step : part.isPrefixOf (b :: (junk ++ rest)) = false := by
      rw [Bool.eq_false_iff]
      exact fun starts => here (List.isPrefixOf_iff_prefix.1 starts)
    rw [List.cons_append, offset?, step, if_neg Bool.false_ne_true, ih later, List.length_cons]
    congr 1
    omega

theorem offset?_starts {part bytes : Bytes} (h : part <+: bytes) (index : Nat) :
    offset? part index bytes = some index := by
  have starts := List.isPrefixOf_iff_prefix.2 h
  cases bytes with
  | nil => simp [offset?, List.prefix_nil.1 h]
  | cons b rest => rw [offset?, if_pos starts]

theorem offset?_clear_nil {part junk : Bytes} (hp : part ≠ []) (h : Clear part junk []) :
    offset? part 0 junk = none := by
  have all := offset?_clear h 0
  rw [List.append_nil] at all
  rw [all]
  simp [offset?, hp]

/-- A line with its end. -/
def IsLine (bytes : Bytes) : Prop :=
  ∃ text, newline ∉ text ∧ bytes = text ++ [newline]

theorem IsLine.ne_nil {line : Bytes} (h : IsLine line) : line ≠ [] := by
  obtain ⟨text, -, rfl⟩ := h
  exact List.append_ne_nil_of_right_ne_nil _ (List.cons_ne_nil _ _)

theorem isLine_iff {line : Bytes} :
    IsLine line ↔ line.getLast? = some newline ∧ newline ∉ line.dropLast := by
  constructor
  · rintro ⟨text, plain, rfl⟩
    simpa using plain
  · rintro ⟨last, plain⟩
    obtain ⟨text, rfl⟩ := List.getLast?_eq_some_iff.1 last
    exact ⟨text, by simpa using plain, rfl⟩

theorem isLine_append {front line : Bytes} (filled : line ≠ []) :
    IsLine (front ++ line) ↔ newline ∉ front ∧ IsLine line := by
  rw [isLine_iff, isLine_iff, List.getLast?_append_of_ne_nil _ filled,
    List.dropLast_append_of_ne_nil filled, List.mem_append, not_or]
  exact and_left_comm

theorem newline_clear {text rest : Bytes} (h : newline ∉ text) : Clear [newline] text rest := by
  intro tail suffix nonempty starts
  obtain ⟨b, tail, rfl⟩ := List.exists_cons_of_ne_nil nonempty
  obtain ⟨same, -⟩ := List.cons_prefix_cons.1 starts
  exact h (suffix.mem (same ▸ List.mem_cons_self))

/-- A line is taken whole, and is lost if it is too long. -/
theorem readLine_newline {line : Bytes} (h : IsLine line) (rest : Bytes) (ended : Bool) :
    readLine ⟨line ++ rest, ended⟩ =
      if limit < line.length - 1 then .tooLong true ⟨rest, ended⟩ else .line line ⟨rest, ended⟩ := by
  obtain ⟨text, plain, rfl⟩ := h
  have found : offset? [newline] 0 (text ++ ([newline] ++ rest)) = some text.length := by
    rw [offset?_clear (newline_clear plain), offset?_starts (List.prefix_append _ _), Nat.zero_add]
  unfold readLine
  simp only [List.append_assoc, found]
  rw [List.take_length_add_append, List.drop_length_add_append, List.length_append,
    List.length_singleton, Nat.add_sub_cancel]
  rfl

theorem readLine_line {line : Bytes} (h : IsLine line) (short : line.length ≤ limit) (rest : Bytes)
    (ended : Bool) : readLine ⟨line ++ rest, ended⟩ = .line line ⟨rest, ended⟩ := by
  rw [readLine_newline h, if_neg (by omega)]

theorem newline_notMem_marker : newline ∉ marker := by decide

theorem clear_marker_line {line rest : Bytes} (h : IsLine line)
    (clear : ∀ tail, tail <:+ line → ¬ marker <+: tail) : Clear marker line rest := by
  obtain ⟨text, -, rfl⟩ := h
  refine clear_of_boundary newline_notMem_marker ?_
  intro tail suffix starts
  obtain ⟨front, rfl⟩ := suffix
  refine clear (tail ++ [newline]) ⟨front, by simp⟩ ?_
  exact starts.trans (List.prefix_append _ _)

theorem clear_drop {part junk rest : Bytes} (h : Clear part junk rest) (n : Nat) :
    Clear part (junk.drop n) rest :=
  fun tail suffix => h tail (suffix.trans (List.drop_suffix n junk))

/-- Bytes in front of a marker are passed over, in reach of one look or not. -/
theorem readMarker_clear {junk rest : Bytes} (h : Clear marker junk (marker ++ rest))
    (ended : Bool) :
    readMarker ⟨junk ++ (marker ++ rest), ended⟩ = .found ⟨rest, ended⟩ ∨
      readMarker ⟨junk ++ (marker ++ rest), ended⟩ = .skipped ⟨marker ++ rest, ended⟩ := by
  have found : offset? marker 0 (junk ++ (marker ++ rest)) = some junk.length := by
    rw [offset?_clear h, offset?_starts (List.prefix_append _ _), Nat.zero_add]
  unfold readMarker
  simp only [found]
  split
  · right
    simp
  · left
    rw [← List.append_assoc, List.drop_append_of_le_length (by simp)]
    simp

theorem readMarker_marker (rest : Bytes) (ended : Bool) :
    readMarker ⟨marker ++ rest, ended⟩ = .found ⟨rest, ended⟩ := by
  unfold readMarker
  simp only [offset?_starts (List.prefix_append _ _)]
  rw [if_neg (Nat.not_lt_zero _), Nat.zero_add, List.drop_left]

/-- Without a marker the stream is dropped, at once or but for a few bytes at its end. -/
theorem readMarker_none {junk : Bytes} (h : Clear marker junk []) :
    readMarker ⟨junk, true⟩ = .missing ⟨[], true⟩ ∨
      ∃ n, readMarker ⟨junk, true⟩ = .skipped ⟨junk.drop n, true⟩ := by
  unfold readMarker
  simp only [offset?_clear_nil (by decide) h]
  split
  · right
    exact ⟨_, rfl⟩
  · left
    rfl

end Stream
end LanguageClient.Wire
