import LanguageClient.Proofs.Range.Merge

/-!
What is reported of a document. The lines of a reported range are lines of the document, the first not
after the last; its characters can be out of order only on the last line, where ranges end that reach
beyond the document. Neighbours have no line in common unless one ends, on that line, before a character
at which the other starts.
-/

namespace LanguageClient.Range

variable {r s before current : Range} {ranges rest : List Range} {lineCount padding : Int}

theorem startLine_absorb : (before.absorb current).startLine = before.startLine :=
  congrArg (fun p => (ofLex p).1) start_absorb

theorem endLine_le_absorb : before.endLine ≤ (before.absorb current).endLine := by
  rw [absorb]
  split
  · rename_i later
    exact (Prod.Lex.toLex_lt_toLex.1 (endsBefore_iff.1 later)).elim le_of_lt fun same => same.1.le
  · exact le_rfl

/-- What is kept when one range absorbs another holds of all that are merged. -/
theorem forall_mem_mergeFrom {P : Range → Prop} (kept : ∀ r s, P r → P s → P (r.absorb s))
    (given : ∀ s ∈ before :: rest, P s) : ∀ r ∈ mergeFrom before rest, P r := by
  induction rest generalizing before with
  | nil => exact given
  | cons current rest ih =>
    obtain ⟨first, others⟩ := List.forall_mem_cons.1 given
    obtain ⟨second, later⟩ := List.forall_mem_cons.1 others
    rw [mergeFrom]
    split
    · exact ih (List.forall_mem_cons.2 ⟨kept _ _ first second, later⟩)
    · exact List.forall_mem_cons.2 ⟨first, ih others⟩

theorem forall_mem_merge {P : Range → Prop} (kept : ∀ r s, P r → P s → P (r.absorb s))
    (given : ∀ s ∈ ranges, P s) : ∀ r ∈ merge ranges, P r := by
  have sorted (s : Range) (hs : s ∈ ranges.mergeSort startsBy) : P s := given s (List.mem_mergeSort.1 hs)
  rw [merge]
  cases h : ranges.mergeSort startsBy with
  | nil => simp [mergeSorted]
  | cons r rest => exact forall_mem_mergeFrom kept (h ▸ sorted)

/-- A range with its lines in order. It starts after its end only on the last line of a document, and
only where something `beyond` the document has been asked for. -/
structure Upright (lineCount : Int) (beyond : Prop) (r : Range) : Prop where
  lines : r.startLine ≤ r.endLine
  forward : r.start ≤ r.stop ∨ r.startLine = max (lineCount - 1) 0 ∧ beyond

namespace Upright

variable {beyond beyond' : Prop}

theorem imp (h : r.Upright lineCount beyond) (more : beyond → beyond') : r.Upright lineCount beyond' where
  lines := h.lines
  forward := h.forward.imp_right fun ⟨last, asked⟩ => ⟨last, more asked⟩

theorem pad (forward : r.start ≤ r.stop) (counted : 0 ≤ r.startLine) (widened : 0 ≤ padding) :
    (r.pad lineCount padding).Upright lineCount (max (lineCount - 1) 0 < r.endLine) := by
  simp only [start, stop, Prod.Lex.toLex_le_toLex] at forward
  constructor
  · simp only [Range.pad]
    omega
  · simp only [Range.pad, start, stop, Prod.Lex.toLex_le_toLex]
    omega

theorem absorb (h : r.Upright lineCount beyond) : (r.absorb s).Upright lineCount beyond where
  lines := by
    rw [startLine_absorb]
    exact h.lines.trans endLine_le_absorb
  forward := by
    rw [start_absorb, stop_absorb, startLine_absorb]
    exact h.forward.imp_left fun forward => forward.trans (le_max_left _ _)

end Upright

/-- Of ranges that end no earlier than they start, with lines counted from zero, only lines of the
document are reported, and every report ends no earlier than it starts if no range was asked for that
ends behind the document. -/
theorem coalesce_within (forward : ∀ r ∈ ranges, r.start ≤ r.stop)
    (counted : ∀ r ∈ ranges, 0 ≤ r.startLine) (widened : 0 ≤ padding)
    (h : r ∈ coalesce ranges lineCount padding) :
    r.Within lineCount ∧ r.Upright lineCount (∃ s ∈ ranges, max (lineCount - 1) 0 < s.endLine) := by
  refine ⟨within_of_mem_coalesce h, forall_mem_merge (fun _ _ first _ => first.absorb) ?_ r h⟩
  refine List.forall_mem_map.2 fun s hs => ?_
  exact (Upright.pad (forward s hs) (counted s hs) widened).imp fun beyond => ⟨s, hs, beyond⟩

/-- Cut to the last line, a range from behind the document keeps its characters. -/
example : coalesce [⟨50, 10, 60, 5⟩] 10 margin = [⟨9, 10, 9, 5⟩] := by cbv

/-- No line is reported twice of ranges none of which starts at a character behind that at which one
ends, as ranges of whole lines do. -/
theorem coalesce_lines_apart
    (level : ∀ r ∈ ranges, ∀ s ∈ ranges, r.startCharacter ≤ s.endCharacter) :
    (coalesce ranges lineCount padding).IsChain fun before after => before.endLine < after.startLine := by
  refine (apart_merge _).imp_of_mem_imp fun before after hb ha apart => ?_
  obtain ⟨-, _, ht, ends⟩ := ends_of_mem_merge hb
  obtain ⟨⟨_, hs, begins⟩, -⟩ := ends_of_mem_merge ha
  obtain ⟨t, given', rfl⟩ := List.mem_map.1 ht
  obtain ⟨s, given, rfl⟩ := List.mem_map.1 hs
  have startCharacter : s.startCharacter = after.startCharacter :=
    congrArg (fun p => (ofLex p).2) begins
  have endCharacter : t.endCharacter = before.endCharacter := congrArg (fun p => (ofLex p).2) ends
  have reaches : after.startCharacter ≤ before.endCharacter :=
    startCharacter ▸ endCharacter ▸ level s given t given'
  exact (Prod.Lex.toLex_lt_toLex.1 apart).resolve_right fun same => same.2.not_ge reaches

/-- Widened ranges that meet on a line are both reported if their characters keep them apart there. -/
example : coalesce [⟨0, 0, 2, 5⟩, ⟨8, 10, 9, 0⟩] 20 margin = [⟨0, 0, 5, 5⟩, ⟨5, 10, 12, 0⟩] := by cbv

end LanguageClient.Range
