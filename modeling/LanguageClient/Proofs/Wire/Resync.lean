import LanguageClient.Proofs.Wire.Header
import LanguageClient.Proofs.Wire.Progress

/-!
A finished stream made of frames and of header blocks without a usable length. Reading gives every
message, a fault for every body that is no message, and one fault more if no frame follows a header
block without a length.
-/

namespace LanguageClient.Wire

open Text (Bytes)
open Wire.Stream (IsLine marker)

/-- A body that is the text of a mapping. -/
def IsMessage (content : Bytes) : Prop :=
  ∃ text entries, Text.Utf8.decode? content = some text ∧ Json.read? text = some (.map entries)

inductive Block where
  | message (entries : Entries)
  /-- A header block that names no usable length, its blank line, and bytes after it. -/
  | unsized (lines : List Bytes) (blank content : Bytes)
  /-- A frame whose body is no message. -/
  | garbled (content : Bytes)

/-- A frame for bytes of any kind. -/
def framed (content : Bytes) : Bytes := Text.bytesOf (header content.length) ++ content

namespace Block

def bytes : Block → Bytes
  | .message entries => frame (.map entries)
  | .unsized lines blank content => lines.flatten ++ (blank ++ content)
  | .garbled content => framed content

inductive Valid : Block → Prop
  | message (entries : Entries) (lossless : Json.Lossless (.map entries))
      (fits : (header (body (.map entries)).length).length ≤ headerLimit) :
      Valid (.message entries)
  | unsized (lines : List Bytes) (blank content : Bytes)
      (each : ∀ line ∈ lines, IsLine line ∧ ¬ IsBlank line)
      (named : ∃ line ∈ lines, noteLine [] line ≠ [])
      (lengthless : ∀ line ∈ lines, contentLength? (noteLine [] line) = none)
      (marked : ∀ line ∈ lines, Clear marker line.tail [])
      (last : IsLine blank ∧ IsBlank blank)
      (fits : (lines.flatten ++ blank).length ≤ headerLimit)
      (clear : Clear marker content []) : Valid (.unsized lines blank content)
  | garbled (content : Bytes) (filled : content ≠ []) (other : ¬ IsMessage content)
      (fits : (header content.length).length ≤ headerLimit) : Valid (.garbled content)

end Block

def stream (blocks : List Block) : Bytes := blocks.flatMap Block.bytes

theorem stream_cons (b : Block) (rest : List Block) :
    stream (b :: rest) = b.bytes ++ stream rest := List.flatMap_cons

/-- No marker begins in the bytes after a header block, not even one that what follows ends. -/
def Apart : List Block → Prop
  | [] => True
  | .unsized _ _ content :: rest => Clear marker content (stream rest) ∧ Apart rest
  | .message _ :: rest | .garbled _ :: rest => Apart rest

/-- What a reading tells the one who reads. -/
inductive Told where
  | message (v : Value)
  | fault
  | ended
  | waiting
deriving DecidableEq

def Reading.told : Reading → Told
  | .message v => .message v
  | .fault _ => .fault
  | .ended => .ended
  | .wait _ => .waiting

namespace Block

def told? : Block → Option Told
  | .message entries => some (.message (.map entries))
  | .unsized _ _ _ => none
  | .garbled _ => some .fault

def isUnsized : Block → Bool
  | .unsized _ _ _ => true
  | .message _ | .garbled _ => false

end Block

/-- A fault is left to tell once no frame follows. -/
def toldAtEnd (lost : Bool) : List Told :=
  if lost then [.fault, .ended] else [.ended]

/-- What reading the blocks tells: their own, and how it ends. -/
def told (blocks : List Block) : List Told :=
  blocks.filterMap Block.told? ++ toldAtEnd (blocks.getLast?.any Block.isUnsized)

theorem mem_trimChars {c : Char} {cs : List Char} (h : c ∈ cs) (hb : Text.isBlank c = false) :
    c ∈ Text.trimChars cs := by
  have kept {p : Char → Bool} {ds : List Char} (hd : c ∈ ds) (hp : p c = false) :
      c ∈ ds.dropWhile p := by
    rw [← List.takeWhile_append_dropWhile (p := p) (l := ds), List.mem_append] at hd
    rcases hd with taken | left
    · have dropped := List.all_takeWhile (p := p) (l := ds)
      rw [List.all_eq_true] at dropped
      rw [dropped c taken] at hp
      cases hp
    · exact left
  exact List.mem_reverse.2 (kept (List.mem_reverse.2 (kept h hb)) hb)

theorem mem_asciiLossy {b : UInt8} {bytes : Bytes} (h : b ∈ bytes) (hb : b < 0x80) :
    Char.ofNat b.toNat ∈ Text.asciiLossy bytes :=
  List.mem_map.2 ⟨b, h, if_pos hb⟩

theorem mem_marker_colon : (58 : UInt8) ∈ marker := by decide

theorem noteLine_marker {line : Bytes} (h : marker <+: line) : noteLine [] line ≠ [] := by
  have colon : ':' ∈ Text.trimChars (Text.asciiLossy line) :=
    mem_trimChars (mem_asciiLossy (h.mem mem_marker_colon) (by decide)) (by decide)
  have named : (Text.trimChars (Text.asciiLossy line)).contains ':' = true := by simpa using colon
  rw [noteLine]
  simp only [named, if_true]
  exact put_ne_nil _ _ _

theorem clear_blank {blank : Bytes} (h : IsLine blank) (hb : IsBlank blank) (rest : Bytes) :
    Clear marker blank rest := by
  refine Stream.clear_marker_line h ?_
  intro tail suffix starts
  have colon := mem_asciiLossy (suffix.mem (starts.mem mem_marker_colon)) (by decide)
  have inside := mem_trimChars colon (by decide)
  rw [hb] at inside
  cases inside

theorem clear_line {line : Bytes} (h : IsLine line) (starts : ¬ marker <+: line)
    (later : Clear marker line.tail []) (rest : Bytes) : Clear marker line rest := by
  refine Stream.clear_marker_line h ?_
  obtain ⟨b, bytes, rfl⟩ := List.exists_cons_of_ne_nil h.ne_nil
  intro tail suffix
  rcases List.suffix_cons_iff.1 suffix with rfl | inside
  · exact starts
  · cases tail with
    | nil => decide
    | cons c tail =>
      have free := later (c :: tail) inside (List.cons_ne_nil _ _)
      rwa [List.append_nil] at free

theorem read_congr {p p' : Point} {s s' : Stream} (h : step p s = step p' s') :
    read p s = read p' s' := by
  cases hs : step p' s' with
  | mk next after =>
    cases next with
    | on q => rw [read_on (h.trans hs), read_on hs]
    | out r => rw [read_out (h.trans hs), read_out hs]

theorem headerLimit_le : headerLimit ≤ Stream.limit := by decide

/-- A line is read the same way whether it comes from the stream or was read before. -/
theorem read_line {line : Bytes} (h : IsLine line) (short : line.length ≤ headerLimit)
    (headers : Entries) (size : Nat) (rest : Bytes) :
    read (.header headers size none) ⟨line ++ rest, true⟩ =
      read (.header headers size (some line)) ⟨rest, true⟩ := by
  refine read_congr ?_
  obtain ⟨b, bytes, rfl⟩ := List.exists_cons_of_ne_nil h.ne_nil
  have one := Stream.readLine_line h (Nat.le_trans short headerLimit_le) rest true
  simp only [step, one]

theorem read_lines {lines : List Bytes} (each : ∀ line ∈ lines, IsLine line ∧ ¬ IsBlank line)
    {headers : Entries} {size : Nat} (fits : size + lines.flatten.length ≤ headerLimit)
    (rest : Bytes) :
    read (.header headers size none) ⟨lines.flatten ++ rest, true⟩ =
      read (.header (lines.foldl noteLine headers) (size + lines.flatten.length) none)
        ⟨rest, true⟩ := by
  induction lines generalizing headers size with
  | nil => rfl
  | cons line lines ih =>
    obtain ⟨⟨whole, filled⟩, later⟩ := List.forall_mem_cons.1 each
    rw [List.flatten_cons, List.length_append] at fits
    have noted := afterLine_line headers size filled (by omega)
    have taken : step (.header headers size (some line)) ⟨lines.flatten ++ rest, true⟩ =
        (.on (.header (noteLine headers line) (size + line.length) none),
          ⟨lines.flatten ++ rest, true⟩) := by
      rw [step, noted]
    rw [List.flatten_cons, List.append_assoc, read_line whole (by omega), read_on taken,
      ih later (by omega), List.foldl_cons, List.length_append, Nat.add_assoc]

theorem foldl_noteLine_ne_nil {lines : List Bytes} {headers : Entries}
    (h : headers ≠ [] ∨ ∃ line ∈ lines, noteLine [] line ≠ []) :
    lines.foldl noteLine headers ≠ [] := by
  induction lines generalizing headers with
  | nil =>
    rcases h with h | ⟨line, hl, -⟩
    · exact h
    · cases hl
  | cons line lines ih =>
    refine ih ?_
    rcases h with h | ⟨named, hl, hn⟩
    · exact .inl (noteLine_ne_nil (.inl h))
    · rcases List.mem_cons.1 hl with rfl | hl
      · exact .inl (noteLine_ne_nil (.inr hn))
      · exact .inr ⟨named, hl, hn⟩

theorem contentLength?_foldl {lines : List Bytes} {headers : Entries}
    (before : contentLength? headers = none)
    (each : ∀ line ∈ lines, contentLength? (noteLine [] line) = none) :
    contentLength? (lines.foldl noteLine headers) = none := by
  induction lines generalizing headers with
  | nil => exact before
  | cons line lines ih =>
    obtain ⟨here, later⟩ := List.forall_mem_cons.1 each
    exact ih (contentLength?_noteLine before here) later

theorem read_blank {blank : Bytes} (h : IsLine blank) (hb : IsBlank blank) {headers : Entries}
    {size : Nat} (fits : size + blank.length ≤ headerLimit) (hne : headers ≠ []) (rest : Bytes) :
    read (.header headers size none) ⟨blank ++ rest, true⟩ = match contentLength? headers with
      | some n => read (.body n) ⟨rest, true⟩
      | none => read (.skipping (.noLength headers)) ⟨rest, true⟩ := by
  have ends := afterLine_blank hb fits hne
  rw [read_line h (by omega)]
  split
  · next n known =>
    rw [known] at ends
    have taken : step (.header headers size (some blank)) ⟨rest, true⟩ =
        (.on (.body n), ⟨rest, true⟩) := by rw [step, ends]
    exact read_on taken
  · next unknown =>
    rw [unknown] at ends
    have taken : step (.header headers size (some blank)) ⟨rest, true⟩ =
        (.on (.skipping (.noLength headers)), ⟨rest, true⟩) := by rw [step, ends]
    exact read_on taken

/-- The reader between two blocks: ready for a header, or looking for one behind other bytes. -/
inductive Between (rest : Bytes) : Bool → Point → Bytes → Prop
  | ready : Between rest false .start rest
  | lost (fault : FrameFault) (junk : Bytes) (clear : Clear marker junk rest) :
      Between rest true (.skipping fault) (junk ++ rest)

theorem isLine_of_marker {tail : Bytes} (h : IsLine (marker ++ tail)) : IsLine tail := by
  obtain ⟨text, plain, same⟩ := h
  rcases List.append_eq_append_iff.1 same with ⟨middle, rfl, rfl⟩ | ⟨middle, split, ends⟩
  · rw [List.mem_append, not_or] at plain
    exact ⟨middle, plain.2, rfl⟩
  · cases middle with
    | nil => exact ⟨[], List.not_mem_nil, ends.symm⟩
    | cons b middle =>
      obtain ⟨rfl, -⟩ := List.cons.inj ends
      refine absurd ?_ Stream.newline_notMem_marker
      rw [split]
      exact List.mem_append_right _ List.mem_cons_self

theorem read_found {junk rest : Bytes} (h : Clear marker junk (marker ++ rest))
    (fault : FrameFault) :
    read (.skipping fault) ⟨junk ++ (marker ++ rest), true⟩ = read (.marked fault) ⟨rest, true⟩ := by
  have here : step (.skipping fault) ⟨marker ++ rest, true⟩ = (.on (.marked fault), ⟨rest, true⟩) := by
    simp only [step, Stream.readMarker_marker]
  rcases Stream.readMarker_clear h true with found | skipped
  · have taken : step (.skipping fault) ⟨junk ++ (marker ++ rest), true⟩ =
        (.on (.marked fault), ⟨rest, true⟩) := by
      simp only [step, found]
    exact read_on taken
  · have taken : step (.skipping fault) ⟨junk ++ (marker ++ rest), true⟩ =
        (.on (.skipping fault), ⟨marker ++ rest, true⟩) := by
      simp only [step, skipped]
    rw [read_on taken, read_on here]

/-- A line that begins with the marker is where a block is entered, from either state. -/
theorem Between.enter {tail rest : Bytes} (h : IsLine tail)
    (short : (marker ++ tail).length ≤ headerLimit) {lost : Bool} {p : Point} {buffer : Bytes}
    (between : Between (marker ++ tail ++ rest) lost p buffer) :
    read p ⟨buffer, true⟩ = read (.header [] 0 (some (marker ++ tail))) ⟨rest, true⟩ := by
  have whole : IsLine (marker ++ tail) :=
    (Stream.isLine_append h.ne_nil).2 ⟨Stream.newline_notMem_marker, h⟩
  cases between with
  | ready => exact read_line whole short [] 0 rest
  | lost fault junk clear =>
    rw [List.append_assoc] at clear ⊢
    rw [read_found clear]
    have small : tail.length ≤ Stream.limit := by
      rw [List.length_append] at short
      exact Nat.le_trans (Nat.le_of_add_left_le short) headerLimit_le
    have taken : step (.marked fault) ⟨tail ++ rest, true⟩ =
        (.on (.header [] 0 (some (marker ++ tail))), ⟨rest, true⟩) := by
      simp only [step, Stream.readLine_line h small]
    exact read_on taken

theorem length_lengthLine (n : Nat) : (lengthLine n).length + crlf.length = (header n).length := by
  rw [← List.length_append, ← bytesOf_header, Text.length_bytesOf]

/-- A frame whose header line has been taken, in a block with room for the frame's header. -/
theorem read_lengthLine {content : Bytes} (filled : content ≠ []) (headers : Entries) {size : Nat}
    (fits : size + (header content.length).length ≤ headerLimit) (rest : Bytes) :
    read (.header headers size (some (lengthLine content.length))) ⟨crlf ++ (content ++ rest), true⟩ =
      (messageOf content, ⟨rest, true⟩) := by
  have positive : 0 < content.length := List.length_pos_iff.2 filled
  have width := length_lengthLine content.length
  have noted := afterLine_line headers size (not_isBlank_lengthLine content.length) (by omega)
  have taken : step (.header headers size (some (lengthLine content.length)))
      ⟨crlf ++ (content ++ rest), true⟩ =
        (.on (.header (noteLine headers (lengthLine content.length))
          (size + (lengthLine content.length).length) none), ⟨crlf ++ (content ++ rest), true⟩) := by
    rw [step, noted]
  have named : noteLine headers (lengthLine content.length) ≠ [] := by
    rw [noteLine_lengthLine]
    exact put_ne_nil _ _ _
  rw [read_on taken, read_blank isLine_crlf isBlank_crlf (by omega) named,
    contentLength?_lengthLine positive]
  refine read_out ?_
  simp [step, Stream.readExactly]

theorem Between.read_framed {content rest : Bytes} (filled : content ≠ [])
    (fits : (header content.length).length ≤ headerLimit) {lost : Bool} {p : Point}
    {buffer : Bytes} (between : Between (framed content ++ rest) lost p buffer) :
    read p ⟨buffer, true⟩ = (messageOf content, ⟨rest, true⟩) := by
  have width := length_lengthLine content.length
  have shape : framed content ++ rest =
      marker ++ lengthTail content.length ++ (crlf ++ (content ++ rest)) := by
    rw [framed, bytesOf_header, lengthLine_eq]
    simp only [List.append_assoc]
  rw [shape] at between
  rw [between.enter (isLine_lengthTail _) (by rw [← lengthLine_eq]; omega), ← lengthLine_eq,
    read_lengthLine filled [] (by rwa [Nat.zero_add])]

/-- The rest of a header block without a length leads to looking for the next one. -/
theorem read_unsized_lines {lines : List Bytes} {blank : Bytes} (headers : Entries) (size : Nat)
    (each : ∀ line ∈ lines, IsLine line ∧ ¬ IsBlank line)
    (named : headers ≠ [] ∨ ∃ line ∈ lines, noteLine [] line ≠ [])
    (before : contentLength? headers = none)
    (lengthless : ∀ line ∈ lines, contentLength? (noteLine [] line) = none)
    (last : IsLine blank ∧ IsBlank blank)
    (fits : size + (lines.flatten ++ blank).length ≤ headerLimit) (rest : Bytes) :
    ∃ fault, read (.header headers size none) ⟨lines.flatten ++ (blank ++ rest), true⟩ =
      read (.skipping fault) ⟨rest, true⟩ := by
  rw [List.length_append] at fits
  have unsized := contentLength?_foldl before lengthless
  refine ⟨.noLength (lines.foldl noteLine headers), ?_⟩
  rw [read_lines each (by omega),
    read_blank last.1 last.2 (by omega) (foldl_noteLine_ne_nil named), unsized]

theorem read_unsized_lost {lines : List Bytes} {blank content rest : Bytes}
    (each : ∀ line ∈ lines, IsLine line ∧ ¬ IsBlank line)
    (lengthless : ∀ line ∈ lines, contentLength? (noteLine [] line) = none)
    (marked : ∀ line ∈ lines, Clear marker line.tail [])
    (last : IsLine blank ∧ IsBlank blank)
    (fits : (lines.flatten ++ blank).length ≤ headerLimit) (apart : Clear marker content rest)
    {fault : FrameFault} (junk : Bytes)
    (clear : Clear marker junk (lines.flatten ++ (blank ++ (content ++ rest)))) :
    ∃ p buffer, read (.skipping fault)
        ⟨junk ++ (lines.flatten ++ (blank ++ (content ++ rest))), true⟩ =
      read p ⟨buffer, true⟩ ∧ Between rest true p buffer := by
  induction lines generalizing junk with
  | nil =>
    have whole : Clear marker (junk ++ (blank ++ content)) rest := by
      rw [clear_append, clear_append, List.append_assoc]
      exact ⟨clear, clear_blank last.1 last.2 _, apart⟩
    refine ⟨_, _, ?_, .lost fault (junk ++ (blank ++ content)) whole⟩
    simp only [List.flatten_nil, List.nil_append, List.append_assoc]
  | cons line lines ih =>
    obtain ⟨⟨whole, filled⟩, eachLater⟩ := List.forall_mem_cons.1 each
    obtain ⟨alone, lengthlessLater⟩ := List.forall_mem_cons.1 lengthless
    obtain ⟨atStart, markedLater⟩ := List.forall_mem_cons.1 marked
    rw [List.flatten_cons, List.append_assoc] at clear ⊢
    rw [List.flatten_cons, List.length_append, List.length_append] at fits
    by_cases starts : marker <+: line
    · obtain ⟨tail, rfl⟩ := starts
      have between : Between (marker ++ tail ++ (lines.flatten ++ (blank ++ (content ++ rest)))) true
          (.skipping fault) _ := .lost fault junk clear
      have small : 0 + (marker ++ tail).length + (lines.flatten ++ blank).length ≤ headerLimit := by
        have both := @List.length_append _ lines.flatten blank
        omega
      have noted := afterLine_line [] 0 filled (by omega)
      have taken : step (.header [] 0 (some (marker ++ tail)))
          ⟨lines.flatten ++ (blank ++ (content ++ rest)), true⟩ =
            (.on (.header (noteLine [] (marker ++ tail)) (0 + (marker ++ tail).length) none),
              ⟨lines.flatten ++ (blank ++ (content ++ rest)), true⟩) := by
        rw [step, noted]
      obtain ⟨after, left⟩ := read_unsized_lines (noteLine [] (marker ++ tail))
        (0 + (marker ++ tail).length) eachLater (.inl (noteLine_marker (List.prefix_append _ _)))
        alone lengthlessLater last small (content ++ rest)
      refine ⟨_, _, ?_, .lost after content apart⟩
      rw [between.enter (isLine_of_marker whole) (by omega), read_on taken, left]
    · have free := clear_line whole starts atStart (lines.flatten ++ (blank ++ (content ++ rest)))
      have grown := ih eachLater lengthlessLater markedLater (by rw [List.length_append]; omega)
        (junk ++ line) (clear_append.2 ⟨clear, free⟩)
      rw [List.append_assoc] at grown
      exact grown

theorem Between.read_unsized {lines : List Bytes} {blank content rest : Bytes}
    (valid : (Block.unsized lines blank content).Valid) (apart : Clear marker content rest)
    {lost : Bool} {p : Point} {buffer : Bytes}
    (between : Between ((Block.unsized lines blank content).bytes ++ rest) lost p buffer) :
    ∃ p' buffer', read p ⟨buffer, true⟩ = read p' ⟨buffer', true⟩ ∧ Between rest true p' buffer' := by
  cases valid with
  | unsized _ _ _ each named lengthless marked last fits _ =>
    have shape : (Block.unsized lines blank content).bytes ++ rest =
        lines.flatten ++ (blank ++ (content ++ rest)) := by
      simp only [Block.bytes, List.append_assoc]
    rw [shape] at between
    cases between with
    | ready =>
      obtain ⟨fault, left⟩ := read_unsized_lines [] 0 each (.inr named)
        contentLength?_nil lengthless last (by omega) (content ++ rest)
      exact ⟨_, _, left, .lost fault content apart⟩
    | lost fault junk clear => exact read_unsized_lost each lengthless marked last fits apart junk clear

theorem read_lost_end {junk : Bytes} (clear : Clear marker junk []) (fault : FrameFault) :
    read (.skipping fault) ⟨junk, true⟩ = (.fault fault, ⟨[], true⟩) := by
  induction hn : junk.length using Nat.strongRecOn generalizing junk with
  | ind n ih =>
    subst hn
    rcases Stream.readMarker_none clear with missing | ⟨n, skipped⟩
    · exact read_out (by simp only [step, missing])
    · have shorter := Stream.readMarker_skipped_shrinks skipped
      have taken : step (.skipping fault) ⟨junk, true⟩ =
          (.on (.skipping fault), ⟨junk.drop n, true⟩) := by
        simp only [step, skipped]
      rw [read_on taken]
      exact ih _ shorter (Stream.clear_drop clear n) rfl

theorem Between.read_end {lost : Bool} {p : Point} {buffer : Bytes}
    (between : Between [] lost p buffer) :
    (lost = false ∧ read p ⟨buffer, true⟩ = (.ended, ⟨[], true⟩)) ∨
      (lost = true ∧ ∃ fault, read p ⟨buffer, true⟩ = (.fault fault, ⟨[], true⟩)) := by
  cases between with
  | ready => exact .inl ⟨rfl, read_out rfl⟩
  | lost fault junk clear =>
    rw [List.append_nil]
    exact .inr ⟨rfl, fault, read_lost_end clear fault⟩

theorem messageOf_body {entries : Entries} (h : Json.Faithful (.map entries)) :
    messageOf (Text.bytesOf (body (.map entries))) = .message (.map entries) := by
  have back := Json.read?_print Json.legible_compact h
  have bytes := Text.decode?_bytesOf (Json.ascii_print h)
  simp only [messageOf, body, bytes, back]

theorem messageOf_other {content : Bytes} (h : ¬ IsMessage content) :
    (messageOf content).told = .fault := by
  unfold messageOf
  split
  · rfl
  · next text decoded =>
    split
    · rfl
    · next entries read => exact absurd ⟨text, entries, decoded, read⟩ h
    · rfl

theorem frame_eq (payload : Value) :
    frame payload = framed (Text.bytesOf (body payload)) := by
  rw [framed, Text.length_bytesOf, ← Text.bytesOf_append]
  rfl

theorem body_ne_nil {entries : Entries} (h : Json.Faithful (.map entries)) :
    Text.bytesOf (body (.map entries)) ≠ [] := by
  have filled := Json.length_print_pos h Json.compact
  rw [← List.length_pos_iff, Text.length_bytesOf]
  exact filled

theorem Between.read_message {entries : Entries} {rest : Bytes}
    (valid : (Block.message entries).Valid) {lost : Bool} {p : Point} {buffer : Bytes}
    (between : Between ((Block.message entries).bytes ++ rest) lost p buffer) :
    read p ⟨buffer, true⟩ = (.message (.map entries), ⟨rest, true⟩) := by
  cases valid with
  | message _ lossless fits =>
    rw [Block.bytes, frame_eq] at between
    rw [between.read_framed (body_ne_nil lossless.faithful) (by rwa [Text.length_bytesOf]),
      messageOf_body lossless.faithful]

/-- All readings of a finished stream, the first of them from some point on. -/
def readFrom (p : Point) (count : Nat) (s : Stream) : List Reading :=
  match read p s with
  | (.ended, _) => [.ended]
  | (r, s) => r :: readAll count s

theorem readAll_succ (count : Nat) (s : Stream) :
    readAll (count + 1) s = readFrom .start count s := rfl

theorem readFrom_congr {p p' : Point} {s s' : Stream} (h : read p s = read p' s') (count : Nat) :
    readFrom p count s = readFrom p' count s' := by
  rw [readFrom, readFrom, h]

theorem readFrom_out {p : Point} {s s' : Stream} {r : Reading} (h : read p s = (r, s'))
    (hr : r ≠ .ended) (count : Nat) : readFrom p count s = r :: readAll count s' := by
  rw [readFrom, h]
  cases r with
  | ended => exact absurd rfl hr
  | message v => rfl
  | fault f => rfl
  | wait p => rfl

/-- What is told of the blocks that are left, after a header block without a length or not. -/
def toldFrom : (lost : Bool) → List Block → List Told
  | lost, [] => toldAtEnd lost
  | _, b :: rest => b.told?.toList ++ toldFrom b.isUnsized rest

theorem toldFrom_eq (lost : Bool) (blocks : List Block) :
    toldFrom lost blocks = blocks.filterMap Block.told? ++
      toldAtEnd ((blocks.getLast?.map Block.isUnsized).getD lost) := by
  induction blocks generalizing lost with
  | nil => rfl
  | cons b rest ih =>
    rw [toldFrom, ih]
    have last : ((b :: rest).getLast?.map Block.isUnsized).getD lost =
        (rest.getLast?.map Block.isUnsized).getD b.isUnsized := by
      cases rest with
      | nil => rfl
      | cons c rest => simp [List.getLast?_cons]
    rw [last, ← List.append_assoc]
    cases hb : b.told? <;> simp [hb]

theorem told_eq (blocks : List Block) : told blocks = toldFrom false blocks := by
  rw [toldFrom_eq, told]
  cases blocks.getLast? <;> rfl

theorem toldFrom_length_pos (lost : Bool) (blocks : List Block) :
    0 < (toldFrom lost blocks).length := by
  rw [toldFrom_eq, List.length_append, toldAtEnd]
  split <;> simp

theorem readFrom_between {blocks : List Block} (valid : ∀ b ∈ blocks, b.Valid)
    (apart : Apart blocks) {lost : Bool} {p : Point} {buffer : Bytes}
    (between : Between (stream blocks) lost p buffer) {count : Nat}
    (enough : (toldFrom lost blocks).length ≤ count + 1) :
    (readFrom p count ⟨buffer, true⟩).map Reading.told = toldFrom lost blocks := by
  induction blocks generalizing lost p buffer count with
  | nil =>
    rcases between.read_end with ⟨rfl, ended⟩ | ⟨rfl, fault, last⟩
    · rw [readFrom, ended]
      rfl
    · obtain _ | count := count
      · exact absurd enough (by decide)
      · rw [readFrom_out last (by simp)]
        rfl
  | cons b rest ih =>
    obtain ⟨here, later⟩ := List.forall_mem_cons.1 valid
    have more := toldFrom_length_pos false rest
    rw [stream_cons] at between
    cases b with
    | message entries =>
      have fits : (toldFrom false rest).length ≤ count := Nat.le_of_succ_le_succ enough
      obtain _ | count := count
      · exact absurd more (Nat.not_lt.2 fits)
      have taken := between.read_message here
      rw [readFrom_out taken (by simp), readAll_succ, List.map_cons, ih later apart .ready fits]
      rfl
    | garbled content =>
      have fits : (toldFrom false rest).length ≤ count := Nat.le_of_succ_le_succ enough
      obtain _ | count := count
      · exact absurd more (Nat.not_lt.2 fits)
      cases here with
      | garbled _ filled other size =>
        have taken := between.read_framed filled size
        have fault := messageOf_other other
        have going : messageOf content ≠ .ended := by
          intro ended
          rw [ended] at fault
          cases fault
        rw [readFrom_out taken going, readAll_succ, List.map_cons, ih later apart .ready fits, fault]
        rfl
    | unsized lines blank content =>
      obtain ⟨clear, apart⟩ := apart
      obtain ⟨p', buffer', same, behind⟩ := between.read_unsized here clear
      rw [readFrom_congr same]
      exact ih later apart behind enough

/-- Reading a stream of blocks gives the messages in order, each as it was sent and once. A body
that is no message is one fault, and a header block without a length is one only at the end. -/
theorem readAll_stream {blocks : List Block} (valid : ∀ b ∈ blocks, b.Valid) (apart : Apart blocks)
    {count : Nat} (enough : (told blocks).length ≤ count) :
    (readAll count (Stream.ofBytes (stream blocks))).map Reading.told = told blocks := by
  rw [told_eq] at enough ⊢
  obtain _ | count := count
  · exact absurd (toldFrom_length_pos false blocks) (Nat.not_lt.2 enough)
  · exact readFrom_between valid apart .ready enough

theorem isLine_ended {text : List Char} (h : Text.Ascii text) (plain : '\n' ∉ text) :
    IsLine (Text.bytesOf (text ++ ['\r', '\n'])) := by
  refine ⟨Text.bytesOf (text ++ ['\r']), newline_notMem_bytesOf ?_ ?_, ?_⟩
  · exact Text.ascii_append.2 ⟨h, by decide⟩
  · rw [List.mem_append, not_or]
    exact ⟨plain, by decide⟩
  · simp [Text.bytesOf, Stream.newline]

/-- A header block of one line that names no length, with bytes after it. -/
def stray (line content : String) : Block :=
  .unsized [Text.bytesOf (line.toList ++ ['\r', '\n'])] crlf (Text.bytesOf content.toList)

theorem stray_valid {line content : String} (ascii : Text.Ascii line.toList)
    (plain : '\n' ∉ line.toList)
    (filled : ¬ IsBlank (Text.bytesOf (line.toList ++ ['\r', '\n'])))
    (named : noteLine [] (Text.bytesOf (line.toList ++ ['\r', '\n'])) ≠ [])
    (lengthless : contentLength? (noteLine [] (Text.bytesOf (line.toList ++ ['\r', '\n']))) = none)
    (marked : Clear marker (Text.bytesOf (line.toList ++ ['\r', '\n'])).tail [])
    (fits : ([Text.bytesOf (line.toList ++ ['\r', '\n'])].flatten ++ crlf).length ≤ headerLimit)
    (clear : Clear marker (Text.bytesOf content.toList) []) : (stray line content).Valid := by
  refine .unsized _ _ _ ?_ ⟨_, List.mem_singleton_self _, named⟩ ?_ ?_
    ⟨isLine_crlf, isBlank_crlf⟩ fits clear
  · exact List.forall_mem_singleton.2 ⟨isLine_ended ascii plain, filled⟩
  · exact List.forall_mem_singleton.2 lengthless
  · exact List.forall_mem_singleton.2 marked

/-- A message, a stray block, a body that is no message, and a stray block at the end. -/
def mixed : List Block :=
  [.message [(.text "id", .int 1)], stray "Content-Length: 0" "Content", .garbled [0x5d],
    stray "X: y" "z"]

theorem readAll_mixed : ((∀ b ∈ mixed, b.Valid) ∧ Apart mixed ∧ (told mixed).length ≤ 4) ∧
    (readAll 4 (Stream.ofBytes (stream mixed))).map Reading.told = told mixed := by
  have valid : ∀ b ∈ mixed, b.Valid := by
    refine List.forall_mem_cons.2 ⟨?_, List.forall_mem_cons.2 ⟨?_, List.forall_mem_cons.2 ⟨?_,
      List.forall_mem_singleton.2 ?_⟩⟩⟩
    · refine .message _ (.record [("id", .int 1)] ?_ (by decide)) (by decide +kernel)
      exact List.forall_mem_singleton.2 (.int 1)
    · exact stray_valid (by decide) (by decide) (by decide) (by decide) (by decide +kernel)
        (by decide) (by decide) (by decide)
    · refine .garbled _ (by decide) ?_ (by decide +kernel)
      rintro ⟨text, entries, decoded, read⟩
      have same : text = [']'] := (Option.some.inj decoded).symm
      rw [same] at read
      cases read
    · exact stray_valid (by decide) (by decide) (by decide) (by decide) (by decide) (by decide)
        (by decide) (by decide)
  have apart : Apart mixed := ⟨by decide +kernel, by decide, trivial⟩
  have enough : (told mixed).length ≤ 4 := by decide
  exact ⟨⟨valid, apart, enough⟩, readAll_stream valid apart enough⟩

/-- The bytes after the first header block begin a marker that the second one ends. -/
def straddled : List Block := [stray "X: y" "Content-", stray "Length: 2" "\x7b\x7d"]

theorem readAll_straddled : (∀ b ∈ straddled, b.Valid) ∧ told straddled = [.fault, .ended] ∧
    (readAll 2 (Stream.ofBytes (stream straddled))).map Reading.told =
      [.message (.map []), .ended] := by
  have valid : ∀ b ∈ straddled, b.Valid := by
    refine List.forall_mem_cons.2 ⟨?_, List.forall_mem_singleton.2 ?_⟩
    · exact stray_valid (by decide) (by decide) (by decide) (by decide) (by decide) (by decide)
        (by decide) (by decide)
    · exact stray_valid (by decide) (by decide) (by decide) (by decide) (by decide) (by decide)
        (by decide) (by decide)
  exact ⟨valid, rfl, by decide +kernel⟩

end LanguageClient.Wire
