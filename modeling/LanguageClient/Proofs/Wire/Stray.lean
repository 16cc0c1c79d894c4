import LanguageClient.Proofs.Wire.Garbage

/-!
Whole lines in front of a frame, none of which names a length. They cost no message, however many they
are and wherever a block ends among them, with one exception: a header block that grows too long within
the frame's own header takes the frame with it.
-/

namespace LanguageClient.Wire

open Text (Bytes)
open Wire.Stream (IsLine marker)

theorem noteLine_blank {line : Bytes} (h : IsBlank line) (headers : Entries) :
    noteLine headers line = headers := by
  rw [noteLine, h]
  rfl

/-- Before a header a blank line is passed over, but its bytes count. -/
theorem afterLine_passes {line : Bytes} (h : IsBlank line) {size : Nat}
    (fits : size + line.length ≤ headerLimit) :
    afterLine [] size line = .on (.header [] (size + line.length) none) := by
  have empty : (Text.trimChars (Text.asciiLossy line)).isEmpty = true := List.isEmpty_iff.2 h
  simp [afterLine, Nat.not_lt.2 fits, empty]

/-- A line that names no length. -/
def IsStray (line : Bytes) : Prop := IsLine line ∧ Nameless line

theorem IsStray.clear {line : Bytes} (h : IsStray line) (rest : Bytes) : Clear marker line rest :=
  Stream.clear_marker_line h.1 fun _ suffix starts =>
    h.2.marker_notInfix (starts.isInfix.trans suffix.isInfix)

/-- Whether a block ends among lines: a blank one stands behind one with a colon. -/
def endsBlock : (headers : Entries) → List Bytes → Bool
  | _, [] => false
  | headers, line :: lines =>
    (decide (IsBlank line) && !headers.isEmpty) || endsBlock (noteLine headers line) lines

/-- A line that does not end the block is taken into it, blank or not. -/
theorem afterLine_open {headers : Entries} {size : Nat} {line : Bytes}
    (goes : (decide (IsBlank line) && !headers.isEmpty) = false)
    (fits : size + line.length ≤ headerLimit) :
    afterLine headers size line = .on (.header (noteLine headers line) (size + line.length) none) := by
  by_cases blank : IsBlank line
  · obtain rfl : headers = [] := by simpa [blank] using goes
    rw [noteLine_blank blank, afterLine_passes blank fits]
  · exact afterLine_line headers size blank fits

theorem read_open {lines : List Bytes} (each : ∀ line ∈ lines, IsStray line) {headers : Entries}
    {size : Nat} (goes : endsBlock headers lines = false)
    (fits : size + lines.flatten.length ≤ headerLimit) (rest : Bytes) :
    read (.header headers size none) ⟨lines.flatten ++ rest, true⟩ =
      read (.header (lines.foldl noteLine headers) (size + lines.flatten.length) none) ⟨rest, true⟩ := by
  induction lines generalizing headers size with
  | nil => rfl
  | cons line lines ih =>
    obtain ⟨here, later⟩ := List.forall_mem_cons.1 each
    rw [endsBlock, Bool.or_eq_false_iff] at goes
    rw [List.flatten_cons, List.length_append] at fits
    have within : size + line.length + lines.flatten.length ≤ headerLimit := by omega
    have next := ih later goes.2 within
    rw [List.flatten_cons, List.append_assoc, read_line here.1 (by omega), List.foldl_cons,
      List.length_append, ← Nat.add_assoc, ← next]
    refine read_on ?_
    rw [step, afterLine_open goes.1 (by omega)]

/-- A line that makes the block too long is lost, and a header is looked for behind it. -/
theorem read_overrun {line : Bytes} (h : IsLine line) {size : Nat}
    (exceeds : headerLimit < size + line.length) (headers : Entries) (rest : Bytes) :
    ∃ fault, read (.header headers size none) ⟨line ++ rest, true⟩ =
      read (.skipping fault) ⟨rest, true⟩ := by
  have taken := Stream.readLine_newline h rest true
  obtain ⟨b, bytes, rfl⟩ := List.exists_cons_of_ne_nil h.ne_nil
  split at taken
  · refine ⟨.lineTooLong true, read_on ?_⟩
    simp only [step, taken]
  · refine ⟨.headerTooLong, read_on ?_⟩
    simp only [step, taken, afterLine, if_pos exceeds]

section Frame

variable {lines : List Bytes} {content rest : Bytes} {headers : Entries} {size : Nat}

/-- Once the lines have ended a block or made it too long, what is left of them is passed over. -/
theorem read_closed (each : ∀ line ∈ lines, IsStray line) (filled : content ≠ [])
    (framable : (header content.length).length ≤ headerLimit) (unnamed : contentLength? headers = none)
    (within : size ≤ headerLimit)
    (closes : endsBlock headers lines = true ∨ headerLimit < size + lines.flatten.length) :
    read (.header headers size none) ⟨lines.flatten ++ (framed content ++ rest), true⟩ =
      (messageOf content, ⟨rest, true⟩) := by
  induction lines generalizing headers size with
  | nil =>
    rcases closes with ends | exceeds
    · cases ends
    · exact absurd exceeds (Nat.not_lt.2 within)
  | cons line lines ih =>
    obtain ⟨here, later⟩ := List.forall_mem_cons.1 each
    have found (fault : FrameFault) :
        read (.skipping fault) ⟨lines.flatten ++ (framed content ++ rest), true⟩ =
          (messageOf content, ⟨rest, true⟩) :=
      (Between.lost fault _ (clear_flatten (fun line inside => (later line inside).clear) _)).read_framed filled framable
    rw [List.flatten_cons, List.append_assoc]
    -- The reader is lost behind the line that makes the block too long or ends it.
    rcases Nat.lt_or_ge headerLimit (size + line.length) with exceeds | fits
    · obtain ⟨fault, same⟩ := read_overrun here.1 exceeds headers (lines.flatten ++ (framed content ++ rest))
      rw [same, found]
    cases ends : decide (IsBlank line) && !headers.isEmpty with
    | true =>
      obtain ⟨blank, started⟩ : IsBlank line ∧ headers ≠ [] := by simpa using ends
      rw [read_blank here.1 blank fits started, unnamed]
      exact found _
    | false =>
      have closes : endsBlock (noteLine headers line) lines = true ∨
          headerLimit < size + line.length + lines.flatten.length := by
        rw [endsBlock, ends, Bool.false_or, List.flatten_cons, List.length_append,
          ← Nat.add_assoc] at closes
        exact closes
      have next := ih later (by rwa [here.2.contentLength?_noteLine]) fits closes
      rw [read_line here.1 (by omega), ← next]
      refine read_on ?_
      rw [step, afterLine_open ends fits]

theorem read_room (filled : content ≠ []) (headers : Entries)
    (fits : size + (header content.length).length ≤ headerLimit) (rest : Bytes) :
    read (.header headers size none) ⟨framed content ++ rest, true⟩ =
      (messageOf content, ⟨rest, true⟩) := by
  have width := length_lengthLine content.length
  rw [framed_append, read_line (isLine_lengthLine _) (by omega), read_lengthLine filled headers fits]

/-- A block that has none takes the frame's header with it, and the next frame is looked for. -/
theorem read_swallowed (clear : Clear marker content rest) (headers : Entries)
    (exceeds : headerLimit < size + (header content.length).length) :
    ∃ p left, read (.header headers size none) ⟨framed content ++ rest, true⟩ = read p ⟨left, true⟩ ∧
      Between rest true p left := by
  have width := length_lengthLine content.length
  have whole := isLine_lengthLine content.length
  rw [framed_append]
  rcases Nat.lt_or_ge headerLimit (size + (lengthLine content.length).length) with early | fits
  · obtain ⟨fault, same⟩ := read_overrun whole early headers (crlf ++ (content ++ rest))
    refine ⟨_, _, same, ?_⟩
    rw [← List.append_assoc]
    exact .lost fault _ (clear_append.2 ⟨clear_blank isLine_crlf isBlank_crlf _, clear⟩)
  · have taken : step (.header headers size (some (lengthLine content.length)))
        ⟨crlf ++ (content ++ rest), true⟩ =
          (.on (.header (noteLine headers (lengthLine content.length))
            (size + (lengthLine content.length).length) none), ⟨crlf ++ (content ++ rest), true⟩) := by
      rw [step, afterLine_line headers size (not_isBlank_lengthLine _) fits]
    have late : headerLimit < size + (lengthLine content.length).length + crlf.length := by omega
    obtain ⟨fault, same⟩ := read_overrun isLine_crlf late
      (noteLine headers (lengthLine content.length)) (content ++ rest)
    refine ⟨_, _, ?_, .lost fault _ clear⟩
    rw [read_line whole (by omega), read_on taken, same]

end Frame

/-- The frame is lost to the lines: their block is still open, and there is no room in it for the whole
of the frame's header. -/
def Swallowed (lines : List Bytes) (entries : Entries) : Prop :=
  endsBlock [] lines = false ∧ lines.flatten.length ≤ headerLimit ∧
    headerLimit < lines.flatten.length + (header (body (.map entries)).length).length

instance (lines : List Bytes) (entries : Entries) : Decidable (Swallowed lines entries) :=
  inferInstanceAs (Decidable (_ ∧ _))

theorem not_swallowed {lines : List Bytes} {entries : Entries} (h : ¬ Swallowed lines entries) :
    (endsBlock [] lines = true ∨ headerLimit < 0 + lines.flatten.length) ∨
      endsBlock [] lines = false ∧
        0 + lines.flatten.length + (header (body (.map entries)).length).length ≤ headerLimit := by
  rw [Nat.zero_add]
  cases ends : endsBlock [] lines with
  | true => exact .inl (.inl rfl)
  | false =>
    rcases Nat.lt_or_ge headerLimit lines.flatten.length with exceeds | within
    · exact .inl (.inr exceeds)
    · exact .inr ⟨rfl, Nat.not_lt.1 fun exceeds => h ⟨ends, within, exceeds⟩⟩

section Message

variable {lines : List Bytes} {first : Entries} {rest : Bytes}

/-- Any message but a swallowed one is read behind the lines. -/
theorem read_kept (each : ∀ line ∈ lines, IsStray line) (faithful : Json.Faithful (.map first))
    (held : (body (.map first)).length < 2 ^ 63) (kept : ¬ Swallowed lines first) :
    read .start ⟨lines.flatten ++ (framed (Text.bytesOf (body (.map first))) ++ rest), true⟩ =
      (.message (.map first), ⟨rest, true⟩) := by
  have filled := body_ne_nil faithful
  have width : (header (Text.bytesOf (body (.map first))).length).length =
      (header (body (.map first)).length).length := by rw [Text.length_bytesOf]
  have framable := width ▸ length_header_le held
  rw [← messageOf_body faithful]
  rcases not_swallowed kept with closes | ⟨goes, fits⟩
  · exact read_closed each filled framable contentLength?_nil (Nat.zero_le _) closes
  · have within : 0 + lines.flatten.length ≤ headerLimit := by omega
    have opened := read_open each goes within (framed (Text.bytesOf (body (.map first))) ++ rest)
    exact opened.trans (read_room filled _ (by rwa [width]) rest)

theorem read_lost (each : ∀ line ∈ lines, IsStray line)
    (clear : Clear marker (Text.bytesOf (body (.map first))) rest) (swallowed : Swallowed lines first) :
    ∃ p left, read .start ⟨lines.flatten ++ (framed (Text.bytesOf (body (.map first))) ++ rest), true⟩ =
      read p ⟨left, true⟩ ∧ Between rest true p left := by
  obtain ⟨goes, within, exceeds⟩ := swallowed
  rw [← Nat.zero_add lines.flatten.length] at within exceeds
  rw [← Text.length_bytesOf (body (.map first))] at exceeds
  obtain ⟨p, left, lost, between⟩ := read_swallowed clear (lines.foldl noteLine []) exceeds
  exact ⟨p, left, (read_open each goes within _).trans lost, between⟩

end Message

/-- What lines cost the frames behind them: nothing, or the first frame if it is swallowed. -/
theorem readAll_stray {lines : List Bytes} (each : ∀ line ∈ lines, IsStray line) {first : Entries}
    {rest : List Entries} (framable : ∀ p ∈ first :: rest, Framable p) {count : Nat}
    (enough : rest.length + 3 ≤ count) :
    (readAll count (Stream.ofBytes (lines.flatten ++ frames (first :: rest)))).map Reading.told =
      if Swallowed lines first then messages rest ++ toldAtEnd rest.isEmpty
      else messages (first :: rest) ++ [.ended] := by
  obtain ⟨here, later⟩ := List.forall_mem_cons.1 framable
  obtain ⟨count, rfl⟩ : ∃ n, count = n + 2 := ⟨count - 2, by omega⟩
  rw [readAll_succ, Stream.ofBytes, frames_cons]
  split
  · next swallowed =>
    obtain ⟨p, left, lost, between⟩ := read_lost each (here.clear (frames rest)) swallowed
    rw [readFrom_congr lost, readFrom_frames later between (by omega), Bool.true_and]
  · next kept =>
    have next := readFrom_frames later .ready (by omega : rest.length + 1 ≤ count)
    rw [readFrom_out (read_kept each here.faithful here.held kept) (by simp), readAll_succ,
      List.map_cons, next]
    rfl

/-- So many lines `x`, of two bytes each. -/
def crosses (n : Nat) : List Bytes := List.replicate n (Text.bytesOf ['x', '\n'])

theorem isStray_crosses (n : Nat) : ∀ line ∈ crosses n, IsStray line := by
  intro line inside
  obtain rfl := List.eq_of_mem_replicate inside
  exact ⟨⟨[120], by decide, rfl⟩, by decide⟩

/-- The first frame is in the stream, and is not read. -/
theorem readAll_crosses :
    (readAll 4 (Stream.ofBytes ((crosses 2047).flatten ++ frames [numbered 1, numbered 2]))).map
      Reading.told = [.message (.map (numbered 2)), .ended] := by
  have swallowed : Swallowed (crosses 2047) (numbered 1) := by decide +kernel
  rw [readAll_stray (isStray_crosses 2047) framable_numbered (by decide), if_pos swallowed]
  rfl

example : ¬ Swallowed (crosses 2037) (numbered 1) ∧ ¬ Swallowed (crosses 2049) (numbered 1) := by
  decide +kernel

end LanguageClient.Wire
