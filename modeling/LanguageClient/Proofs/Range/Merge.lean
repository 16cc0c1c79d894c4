import LanguageClient.Range
import Mathlib.Data.List.Chain
import Mathlib.Data.List.Pairwise
import Mathlib.Data.Prod.Lex
import Mathlib.Order.MinMax

/-!
Merged ranges are in normal form: they are in order, no two neighbours touch, and together they cover
what the given ranges cover and nothing else. Merging or coalescing what is in normal form changes
nothing.
-/

namespace LanguageClient.Range

/-- A line and a character in it, the line counting first. -/
abbrev Position := ℤ ×ₗ ℤ

def start (r : Range) : Position := toLex (r.startLine, r.startCharacter)

def stop (r : Range) : Position := toLex (r.endLine, r.endCharacter)

/-- From the start to the end, both included. A range that ends before it starts has nothing in it. -/
def Has (r : Range) (p : Position) : Prop := r.start ≤ p ∧ p ≤ r.stop

/-- Some of a list of ranges have a position in them. -/
def Covers (ranges : List Range) (p : Position) : Prop := ∃ r ∈ ranges, r.Has p

/-- No range starts before the one that it follows. -/
def InOrder (ranges : List Range) : Prop := ranges.Pairwise fun r s => r.start ≤ s.start

/-- No range touches the one that it follows. -/
def Apart (ranges : List Range) : Prop := ranges.IsChain fun r s => r.stop < s.start

variable {r s before current : Range} {ranges rest : List Range} {p : Position}
  {lineCount padding : Int}

theorem startsBy_iff : r.startsBy s = true ↔ r.start ≤ s.start := by
  simp [startsBy, start, Prod.Lex.toLex_le_toLex]

theorem endsBefore_iff : r.endsBefore s = true ↔ r.stop < s.stop := by
  simp [endsBefore, stop, Prod.Lex.toLex_lt_toLex]

theorem touches_iff : before.touches current = true ↔ current.start ≤ before.stop := by
  simp [touches, start, stop, Prod.Lex.toLex_le_toLex]

theorem not_touches_iff : before.touches current = false ↔ before.stop < current.start := by
  rw [← Bool.not_eq_true, touches_iff, not_le]

theorem start_absorb : (before.absorb current).start = before.start := by
  rw [absorb]
  split <;> rfl

theorem stop_absorb : (before.absorb current).stop = max before.stop current.stop := by
  rw [absorb]
  split
  · rename_i later
    rw [max_eq_right (endsBefore_iff.1 later).le]
    rfl
  · rename_i earlier
    rw [max_eq_left (not_lt.1 fun later => earlier (endsBefore_iff.2 later))]

/-- A range that starts inside another, or where that ends, only adds what is behind its end. -/
theorem has_absorb (after : before.start ≤ current.start) (near : current.start ≤ before.stop) :
    (before.absorb current).Has p ↔ before.Has p ∨ current.Has p := by
  simp only [Has, start_absorb, stop_absorb, le_max_iff]
  constructor
  · rintro ⟨from_, to_⟩
    rcases le_or_gt p before.stop with inside | behind
    · exact .inl ⟨from_, inside⟩
    · exact .inr ⟨near.trans behind.le, to_.resolve_left behind.not_ge⟩
  · rintro (⟨from_, to_⟩ | ⟨from_, to_⟩)
    · exact ⟨from_, .inl to_⟩
    · exact ⟨after.trans from_, .inr to_⟩

theorem covers_cons : Covers (r :: rest) p ↔ r.Has p ∨ Covers rest p := by
  simp [Covers]

/-- The ends of merged ranges are ends that were given. -/
theorem ends_of_mem_mergeFrom (h : r ∈ mergeFrom before rest) :
    (∃ s ∈ before :: rest, s.start = r.start) ∧ ∃ s ∈ before :: rest, s.stop = r.stop := by
  induction rest generalizing before with
  | nil =>
    obtain rfl : r = before := by simpa [mergeFrom] using h
    exact ⟨⟨r, by simp⟩, r, by simp⟩
  | cons current rest ih =>
    rw [mergeFrom] at h
    split at h
    · obtain ⟨⟨s, hs, begins⟩, t, ht, ends⟩ := ih h
      refine ⟨?_, ?_⟩
      · rcases List.mem_cons.1 hs with rfl | hs
        · exact ⟨before, by simp, start_absorb.symm.trans begins⟩
        · exact ⟨s, by simp [hs], begins⟩
      · rcases List.mem_cons.1 ht with rfl | ht
        · rw [stop_absorb] at ends
          rcases max_choice before.stop current.stop with first | second
          · exact ⟨before, by simp, first ▸ ends⟩
          · exact ⟨current, by simp, second ▸ ends⟩
        · exact ⟨t, by simp [ht], ends⟩
    · rcases List.mem_cons.1 h with rfl | h
      · exact ⟨⟨r, by simp⟩, r, by simp⟩
      · obtain ⟨⟨s, hs, begins⟩, t, ht, ends⟩ := ih h
        exact ⟨⟨s, .tail _ hs, begins⟩, t, .tail _ ht, ends⟩

theorem start_head_mergeFrom (h : (mergeFrom before rest).head? = some r) :
    r.start = before.start := by
  induction rest generalizing before with
  | nil => simp_all [mergeFrom]
  | cons current rest ih =>
    rw [mergeFrom] at h
    split at h
    · rw [ih h, start_absorb]
    · rw [← Option.some.inj h]

/-- The range that is growing takes the place of the one it has absorbed. -/
theorem InOrder.absorb (h : InOrder (before :: current :: rest)) :
    InOrder (before.absorb current :: rest) := by
  obtain ⟨first, h⟩ := List.pairwise_cons.1 h
  refine List.pairwise_cons.2 ⟨fun s hs => ?_, h.tail⟩
  rw [start_absorb]
  exact first s (.tail _ hs)

theorem inOrder_mergeFrom (h : InOrder (before :: rest)) : InOrder (mergeFrom before rest) := by
  induction rest generalizing before with
  | nil => simp [mergeFrom, InOrder]
  | cons current rest ih =>
    rw [mergeFrom]
    split
    · exact ih h.absorb
    · obtain ⟨first, h⟩ := List.pairwise_cons.1 h
      refine List.pairwise_cons.2 ⟨fun r hr => ?_, ih h⟩
      obtain ⟨s, hs, begins⟩ := (ends_of_mem_mergeFrom hr).1
      exact begins ▸ first s hs

theorem apart_mergeFrom : Apart (mergeFrom before rest) := by
  induction rest generalizing before with
  | nil => simp [mergeFrom, Apart]
  | cons current rest ih =>
    rw [mergeFrom]
    split
    · exact ih
    · rename_i gap
      refine List.isChain_cons.2 ⟨fun r hr => ?_, ih⟩
      rw [start_head_mergeFrom hr]
      exact not_touches_iff.1 (Bool.not_eq_true _ ▸ gap)

theorem covers_mergeFrom (h : InOrder (before :: rest)) :
    Covers (mergeFrom before rest) p ↔ Covers (before :: rest) p := by
  induction rest generalizing before with
  | nil => rfl
  | cons current rest ih =>
    obtain ⟨first, tail⟩ := List.pairwise_cons.1 h
    rw [mergeFrom]
    split
    · rename_i near
      rw [ih h.absorb, covers_cons, covers_cons, covers_cons, ← or_assoc,
        has_absorb (first current (by simp)) (touches_iff.1 near)]
    · rw [covers_cons, ih tail, ← covers_cons]

theorem mergeFrom_of_near (near : current.start ≤ before.stop) :
    mergeFrom before (current :: rest) = mergeFrom (before.absorb current) rest := by
  rw [mergeFrom, if_pos (touches_iff.2 near)]

theorem mergeFrom_of_gap (gap : before.stop < current.start) :
    mergeFrom before (current :: rest) = before :: mergeFrom current rest := by
  rw [mergeFrom, if_neg (by simpa using not_touches_iff.2 gap)]

theorem mergeFrom_of_apart (h : Apart (before :: rest)) : mergeFrom before rest = before :: rest := by
  induction rest generalizing before with
  | nil => rfl
  | cons current rest ih =>
    obtain ⟨gap, tail⟩ := List.isChain_cons_cons.1 h
    rw [mergeFrom_of_gap gap, ih tail]

theorem inOrder_sorted (ranges : List Range) : InOrder (ranges.mergeSort startsBy) := by
  have sorted : (ranges.mergeSort startsBy).Pairwise fun r s => r.startsBy s = true := by
    refine List.pairwise_mergeSort ?_ startsBy_total _
    exact fun _ _ _ => startsBy_trans
  exact sorted.imp startsBy_iff.1

theorem covers_sorted (ranges : List Range) : Covers (ranges.mergeSort startsBy) p ↔ Covers ranges p := by
  simp [Covers]

/-- What is in order already is not sorted anew. -/
theorem sorted_of_inOrder (h : InOrder ranges) : ranges.mergeSort startsBy = ranges :=
  List.mergeSort_of_pairwise (h.imp startsBy_iff.2)

theorem inOrder_merge (ranges : List Range) : InOrder (merge ranges) := by
  have sorted := inOrder_sorted ranges
  rw [merge]
  cases h : ranges.mergeSort startsBy with
  | nil => exact .nil
  | cons r rest => exact inOrder_mergeFrom (h ▸ sorted)

theorem apart_merge (ranges : List Range) : Apart (merge ranges) := by
  rw [merge]
  cases ranges.mergeSort startsBy with
  | nil => exact .nil
  | cons r rest => exact apart_mergeFrom

theorem covers_merge : Covers (merge ranges) p ↔ Covers ranges p := by
  have sorted := inOrder_sorted ranges
  rw [← covers_sorted ranges, merge]
  cases h : ranges.mergeSort startsBy with
  | nil => rfl
  | cons r rest => exact covers_mergeFrom (h ▸ sorted)

theorem ends_of_mem_merge (h : r ∈ merge ranges) :
    (∃ s ∈ ranges, s.start = r.start) ∧ ∃ s ∈ ranges, s.stop = r.stop := by
  have given (s : Range) : s ∈ ranges.mergeSort startsBy ↔ s ∈ ranges := List.mem_mergeSort
  simp only [← given]
  rw [merge] at h
  cases sorted : ranges.mergeSort startsBy with
  | nil => simp [sorted, mergeSorted] at h
  | cons s rest => exact ends_of_mem_mergeFrom (by simpa [sorted, mergeSorted] using h)

/-- Ranges in normal form are merged already. -/
theorem merge_of_apart (ordered : InOrder ranges) (apart : Apart ranges) : merge ranges = ranges := by
  rw [merge, sorted_of_inOrder ordered]
  cases ranges with
  | nil => rfl
  | cons r rest => exact mergeFrom_of_apart apart

theorem merge_merge (ranges : List Range) : merge (merge ranges) = merge ranges :=
  merge_of_apart (inOrder_merge ranges) (apart_merge ranges)

/-- A range of a document of some lines: it starts inside and does not end behind it. -/
def Within (lineCount : Int) (r : Range) : Prop :=
  0 ≤ r.startLine ∧ r.startLine ≤ max (lineCount - 1) 0 ∧ r.endLine ≤ max (lineCount - 1) 0

theorem within_pad (lineCount padding : Int) (r : Range) : (r.pad lineCount padding).Within lineCount := by
  simp only [Within, pad]
  omega

theorem pad_of_within (h : r.Within lineCount) : r.pad lineCount 0 = r := by
  obtain ⟨lower, upper, stop⟩ := h
  have first : min (max (r.startLine - 0) 0) (max (lineCount - 1) 0) = r.startLine := by omega
  have last : min (r.endLine + 0) (max (lineCount - 1) 0) = r.endLine := by omega
  rw [pad, first, last]

theorem within_of_mem_coalesce (h : r ∈ coalesce ranges lineCount padding) : r.Within lineCount := by
  obtain ⟨⟨s, hs, begins⟩, t, ht, ends⟩ := ends_of_mem_merge h
  obtain ⟨s, -, rfl⟩ := List.mem_map.1 hs
  obtain ⟨t, -, rfl⟩ := List.mem_map.1 ht
  obtain ⟨lower, upper, -⟩ := within_pad lineCount padding s
  obtain ⟨-, -, last⟩ := within_pad lineCount padding t
  have line : (s.pad lineCount padding).startLine = r.startLine :=
    congrArg (fun p => (ofLex p).1) begins
  have endLine : (t.pad lineCount padding).endLine = r.endLine :=
    congrArg (fun p => (ofLex p).1) ends
  exact ⟨line ▸ lower, line ▸ upper, endLine ▸ last⟩

/-- Coalescing without padding leaves what has been coalesced before, with whatever padding. -/
theorem coalesce_coalesce (ranges : List Range) (lineCount padding : Int) :
    coalesce (coalesce ranges lineCount padding) lineCount 0 = coalesce ranges lineCount padding := by
  have same : (coalesce ranges lineCount padding).map (pad lineCount 0) =
      coalesce ranges lineCount padding := by
    refine (List.map_congr_left fun r hr => ?_).trans (List.map_id _)
    exact pad_of_within (within_of_mem_coalesce hr)
  rw [coalesce, same, coalesce, merge_merge]

/-- Whatever the ranges are, merging them gives ranges in order of their starts of which none touches
the one before it, with the same positions in them; and neither merging nor coalescing without
padding changes its own result. -/
theorem merge_normal_form (ranges : List Range) :
    (merge ranges).Pairwise (fun before after => before.start ≤ after.start) ∧
      (merge ranges).IsChain (fun before after =>
        before.touches after = false ∧ before.stop < after.start) ∧
      (∀ p : Position, (∃ r ∈ merge ranges, r.start ≤ p ∧ p ≤ r.stop) ↔
        ∃ r ∈ ranges, r.start ≤ p ∧ p ≤ r.stop) ∧
      merge (merge ranges) = merge ranges ∧
      ∀ lineCount padding : Int, coalesce (coalesce ranges lineCount padding) lineCount 0 =
        coalesce ranges lineCount padding := by
  have apart : (merge ranges).IsChain (fun before after =>
      before.touches after = false ∧ before.stop < after.start) :=
    (apart_merge ranges).imp fun _ _ gap => ⟨not_touches_iff.2 gap, gap⟩
  exact ⟨inOrder_merge ranges, apart, fun _ => covers_merge, merge_merge ranges,
    coalesce_coalesce ranges⟩

end LanguageClient.Range
