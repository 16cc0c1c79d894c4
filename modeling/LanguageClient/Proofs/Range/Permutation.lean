import LanguageClient.Proofs.Range.Merge

/-!
Merging does not depend on the order in which ranges are given, as long as each of them ends no earlier
than it starts. The sort leaves ranges that start together in the order in which they were given; that
order is lost when they are merged, since they all touch.
-/

namespace LanguageClient.Range

variable {r s before current : Range} {ranges ranges' rest rest' : List Range}

theorem eq_of_ends (begins : r.start = s.start) (ends : r.stop = s.stop) : r = s := by
  cases r
  cases s
  simp_all [start, stop]

theorem absorb_right_comm : (before.absorb r).absorb s = (before.absorb s).absorb r := by
  refine eq_of_ends ?_ ?_
  · simp only [start_absorb]
  · simp only [stop_absorb, max_right_comm]

theorem absorb_comm (together : r.start = s.start) : r.absorb s = s.absorb r := by
  refine eq_of_ends ?_ ?_
  · simp only [start_absorb, together]
  · simp only [stop_absorb, max_comm]

/-- Two ranges that start together go into the same merged range, whichever comes first. -/
theorem mergeFrom_swap (together : r.start = s.start) (hr : r.start ≤ r.stop)
    (hs : s.start ≤ s.stop) :
    mergeFrom before (r :: s :: rest) = mergeFrom before (s :: r :: rest) := by
  rcases le_or_gt r.start before.stop with near | gap
  · have both {t u : Range} (ht : t.start ≤ before.stop) (hu : u.start ≤ before.stop) :
        mergeFrom before (t :: u :: rest) = mergeFrom ((before.absorb t).absorb u) rest := by
      have further : u.start ≤ (before.absorb t).stop := stop_absorb ▸ hu.trans (le_max_left _ _)
      rw [mergeFrom_of_near ht, mergeFrom_of_near further]
    rw [both near (together ▸ near), both (together ▸ near) near, absorb_right_comm]
  · have first : s.start ≤ r.stop := together ▸ hr
    have second : r.start ≤ s.stop := together ▸ hs
    have gap' : before.stop < s.start := together ▸ gap
    rw [mergeFrom_of_gap gap, mergeFrom_of_gap gap', mergeFrom_of_near first, mergeFrom_of_near second,
      absorb_comm together]

theorem mergeFrom_congr (same : ∀ before, mergeFrom before rest = mergeFrom before rest') :
    mergeFrom before (current :: rest) = mergeFrom before (current :: rest') := by
  rw [mergeFrom, mergeFrom, same, same]

/-- A range comes before those that start together with it as well as after them. -/
theorem mergeFrom_front (together : ∀ s ∈ ranges, s.start = r.start) (hr : r.start ≤ r.stop)
    (forward : ∀ s ∈ ranges, s.start ≤ s.stop) :
    mergeFrom before (ranges ++ r :: rest) = mergeFrom before (r :: (ranges ++ rest)) := by
  induction ranges generalizing before with
  | nil => rfl
  | cons s ranges ih =>
    obtain ⟨here, together⟩ := List.forall_mem_cons.1 together
    obtain ⟨hs, forward⟩ := List.forall_mem_cons.1 forward
    have later (before : Range) :
        mergeFrom before (ranges ++ r :: rest) = mergeFrom before (r :: (ranges ++ rest)) :=
      ih together forward
    rw [List.cons_append, mergeFrom_congr later, mergeFrom_swap here hs hr]
    rfl

theorem mergeFrom_of_perm (same : rest.Perm rest') (ordered : InOrder rest) (ordered' : InOrder rest')
    (forward : ∀ r ∈ rest, r.start ≤ r.stop) : mergeFrom before rest = mergeFrom before rest' := by
  induction rest generalizing before rest' with
  | nil => rw [List.nil_perm.1 same]
  | cons r rest ih =>
    obtain ⟨front, back, rfl⟩ := List.append_of_mem (same.subset List.mem_cons_self)
    obtain ⟨first, ordered⟩ := List.pairwise_cons.1 ordered
    obtain ⟨-, -, around⟩ := List.pairwise_append.1 ordered'
    have others : rest.Perm (front ++ back) := (same.trans List.perm_middle).cons_inv
    have given (s : Range) (hs : s ∈ front) : s ∈ rest := others.symm.subset (List.mem_append_left _ hs)
    -- What the other list has in front of `r` starts no later than `r`, which starts no later than it.
    have together (s : Range) (hs : s ∈ front) : s.start = r.start :=
      le_antisymm (around s hs r List.mem_cons_self) (first s (given s hs))
    obtain ⟨hr, forward⟩ := List.forall_mem_cons.1 forward
    have left : InOrder (front ++ back) :=
      ordered'.sublist ((List.sublist_cons_self r back).append_left front)
    rw [mergeFrom_front together hr fun s hs => forward s (given s hs)]
    exact mergeFrom_congr fun before => ih others ordered left forward

theorem mergeFrom_of_before (gap : ∀ r ∈ rest, before.stop < r.start) :
    mergeFrom before rest = before :: mergeSorted rest := by
  cases rest with
  | nil => rfl
  | cons r rest => exact mergeFrom_of_gap (gap r List.mem_cons_self)

theorem mergeSorted_of_perm (same : ranges.Perm ranges') (ordered : InOrder ranges)
    (ordered' : InOrder ranges') (forward : ∀ r ∈ ranges, r.start ≤ r.stop) :
    mergeSorted ranges = mergeSorted ranges' := by
  cases ranges with
  | nil => rw [List.nil_perm.1 same]
  | cons r rest =>
    -- A range on the line above all others, so that both lists are merged behind the same one.
    let above : Range := ⟨0, 0, r.startLine - 1, 0⟩
    have line : above.endLine < r.startLine := by simp only [above]; omega
    have head : above.stop < r.start := Prod.Lex.toLex_lt_toLex.2 (.inl line)
    have gap (s : Range) (hs : s ∈ r :: rest) : above.stop < s.start := by
      rcases List.mem_cons.1 hs with rfl | later
      · exact head
      · exact head.trans_le ((List.pairwise_cons.1 ordered).1 s later)
    have merged : mergeFrom above (r :: rest) = mergeFrom above ranges' :=
      mergeFrom_of_perm same ordered ordered' forward
    rw [mergeFrom_of_before gap, mergeFrom_of_before fun s hs => gap s (same.symm.subset hs)] at merged
    exact (List.cons.inj merged).2

theorem merge_congr (same : ranges.Perm ranges') (forward : ∀ r ∈ ranges, r.start ≤ r.stop) :
    merge ranges = merge ranges' := by
  have sorted : (ranges.mergeSort startsBy).Perm (ranges'.mergeSort startsBy) :=
    (List.mergeSort_perm _ _).trans (same.trans (List.mergeSort_perm _ _).symm)
  refine mergeSorted_of_perm sorted (inOrder_sorted ranges) (inOrder_sorted ranges') fun r hr => ?_
  exact forward r (List.mem_mergeSort.1 hr)

/-- Ranges that are given in another order are merged into the same ranges, and reported as the same
wherever widening them leaves each with its start not after its end. -/
theorem merge_of_perm (same : ranges.Perm ranges') (forward : ∀ r ∈ ranges, r.start ≤ r.stop) :
    merge ranges' = merge ranges ∧
      ∀ lineCount padding : Int,
        (∀ r ∈ ranges, (r.pad lineCount padding).start ≤ (r.pad lineCount padding).stop) →
        coalesce ranges' lineCount padding = coalesce ranges lineCount padding := by
  refine ⟨(merge_congr same forward).symm, fun lineCount padding widened => ?_⟩
  exact (merge_congr (same.map _) (List.forall_mem_map.2 widened)).symm

/-- Ranges with one start, of which now the shorter and now the longer comes first. -/
theorem merge_shuffled :
    let given : List Range := [⟨1, 0, 2, 0⟩, ⟨1, 0, 5, 3⟩, ⟨5, 3, 6, 0⟩, ⟨20, 0, 20, 4⟩]
    let shuffled : List Range := [⟨20, 0, 20, 4⟩, ⟨1, 0, 5, 3⟩, ⟨5, 3, 6, 0⟩, ⟨1, 0, 2, 0⟩]
    given.Perm shuffled ∧ (∀ r ∈ given, r.start ≤ r.stop) ∧
      (∀ r ∈ given, (r.pad 30 3).start ≤ (r.pad 30 3).stop) ∧
      merge shuffled = [⟨1, 0, 6, 0⟩, ⟨20, 0, 20, 4⟩] ∧
      coalesce shuffled 30 3 = [⟨0, 0, 9, 0⟩, ⟨17, 0, 23, 4⟩] := by
  intro given shuffled
  have same : given.Perm shuffled := by decide
  have forward : ∀ r ∈ given, r.start ≤ r.stop := by decide
  have widened : ∀ r ∈ given, (r.pad 30 3).start ≤ (r.pad 30 3).stop := by decide
  obtain ⟨merged, reported⟩ := merge_of_perm same forward
  have sorted : given.Pairwise fun r s => r.startsBy s = true := by decide
  have sorted' : (given.map (pad 30 3)).Pairwise fun r s => r.startsBy s = true := by decide
  refine ⟨same, forward, widened, ?_, ?_⟩
  · rw [merged, merge, List.mergeSort_of_pairwise sorted]
    decide
  · rw [reported 30 3 widened, coalesce, merge, List.mergeSort_of_pairwise sorted']
    decide

end LanguageClient.Range
