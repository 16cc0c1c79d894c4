import LanguageClient.Proofs.Wire.Resync
import Mathlib.Algebra.Group.Nat.Defs

/-!
Frames behind bytes that name no length. Whatever those bytes are, they cost the reader no more than
the first frame.
-/

namespace LanguageClient

namespace Text

/-- Lower case of the ASCII letters. -/
def lowerByte (b : UInt8) : UInt8 := if 0x41 ≤ b && b ≤ 0x5a then b + 0x20 else b

/-- What a byte is read as in a header. -/
def asciiChar (b : UInt8) : Char := if b < 0x80 then Char.ofNat b.toNat else Utf8.replacement

theorem lowerByte_of_toLower {b : UInt8} {c : Char} (same : (asciiChar b).toLower = c)
    (h : c.toNat < 0x80) : lowerByte b = c.toNat.toUInt8 := by
  subst same
  exact (by decide +kernel : ∀ n : Fin 256, (asciiChar (.ofFin n)).toLower.toNat < 0x80 →
    lowerByte (.ofFin n) = (asciiChar (.ofFin n)).toLower.toNat.toUInt8) b.toFin h

/-- An ASCII text in the lower case of what is read stands in the lower case of the bytes. -/
theorem infix_lower {cs : List Char} {bytes : Bytes} (h : Ascii cs)
    (inside : cs <:+: (asciiLossy bytes).map Char.toLower) :
    bytesOf cs <:+: bytes.map lowerByte := by
  have mapped : (asciiLossy bytes).map Char.toLower = bytes.map fun b => (asciiChar b).toLower :=
    List.map_map
  rw [mapped, List.infix_map_iff] at inside
  obtain ⟨part, within, rfl⟩ := inside
  have same : bytesOf (part.map fun b => (asciiChar b).toLower) = part.map lowerByte := by
    rw [bytesOf, List.map_map]
    refine List.map_congr_left fun b hb => (lowerByte_of_toLower rfl ?_).symm
    exact h _ (List.mem_map.2 ⟨b, hb, rfl⟩)
  rw [same]
  exact within.map _

theorem trimChars_infix (cs : List Char) : trimChars cs <:+: cs := by
  have cut : dropEndWhile isBlank (cs.dropWhile isBlank) <+: cs.dropWhile isBlank := by
    rw [dropEndWhile, ← List.reverse_suffix, List.reverse_reverse]
    exact List.dropWhile_suffix _
  exact cut.isInfix.trans (List.dropWhile_suffix _).isInfix

end Text

namespace Wire

open Text (Bytes Ascii)
open Wire.Stream (IsLine marker)

theorem first_notMem_tail : 67 ∉ marker.tail := by decide

/-- In no letter case do these bytes name a length. -/
def Nameless (bytes : Bytes) : Prop :=
  ¬ Text.bytesOf lengthHeader.toList <:+: bytes.map Text.lowerByte

instance (bytes : Bytes) : Decidable (Nameless bytes) :=
  inferInstanceAs (Decidable (¬ _))

namespace Nameless

variable {bytes part : Bytes}

theorem of_infix (h : Nameless bytes) (inside : part <:+: bytes) : Nameless part :=
  fun named => h (named.trans (inside.map _))

theorem marker_notInfix (h : Nameless bytes) : ¬ marker <:+: bytes := by
  intro inside
  have lowered : Text.bytesOf lengthHeader.toList <:+: marker.map Text.lowerByte := by decide
  exact h (lowered.trans (inside.map _))

/-- No marker begins in such bytes, not even one that the marker behind them ends. -/
theorem clear (h : Nameless bytes) (rest : Bytes) : Clear marker bytes (marker ++ rest) := by
  intro tail suffix nonempty starts
  rcases List.prefix_or_prefix_of_prefix starts (List.prefix_append tail _) with inside | ⟨more, same⟩
  · exact h.marker_notInfix (inside.isInfix.trans suffix.isInfix)
  · rw [← same, List.prefix_append_right_inj] at starts
    obtain ⟨b, tail, rfl⟩ := List.exists_cons_of_ne_nil nonempty
    have behind : marker.tail = tail ++ more := (congrArg List.tail same).symm
    cases more with
    | nil =>
      rw [List.append_nil] at same
      exact h.marker_notInfix (same ▸ suffix.isInfix)
    | cons c more =>
      -- The marker's first byte occurs in it nowhere else.
      have start : b = 67 := (List.cons.inj same).1
      have first : c = 67 := (List.cons_prefix_cons.1 starts).1.trans start
      have again : 67 ∈ tail ++ c :: more := first ▸ List.mem_append_right tail List.mem_cons_self
      exact first_notMem_tail (behind ▸ again)

end Nameless

/-- A name that is not the length header's leaves the length as it is. -/
theorem contentLength?_putHeader {text : List Char} {headers : Entries}
    (other : (Text.trimChars (text.takeWhile (· ≠ ':'))).map Char.toLower ≠ lengthHeader.toList) :
    contentLength? (putHeader text headers) = contentLength? headers := by
  have apart : String.ofList ((Text.trimChars (text.takeWhile (· ≠ ':'))).map Char.toLower) ≠
      lengthHeader := by
    intro same
    rw [← same, String.toList_ofList] at other
    exact other rfl
  have kept (v : Value) := Entries.lookup?_put
    (.text (String.ofList ((Text.trimChars (text.takeWhile (· ≠ ':'))).map Char.toLower)))
    (.text lengthHeader) v headers
  simp only [Key.same_text, decide_eq_true_eq, if_neg apart] at kept
  simp only [contentLength?, Entries.field?, putHeader, kept]

/-- No part of a text read from such bytes is the name of a length. -/
theorem Nameless.name_ne {bytes : Bytes} (h : Nameless bytes) {name : List Char}
    (inside : name <:+: Text.asciiLossy bytes) :
    (Text.trimChars name).map Char.toLower ≠ lengthHeader.toList := by
  intro same
  have lowered := ((Text.trimChars_infix name).trans inside).map Char.toLower
  rw [same] at lowered
  exact h (Text.infix_lower (by decide) lowered)

theorem Nameless.contentLength?_noteLine {line : Bytes} (h : Nameless line) (headers : Entries) :
    contentLength? (noteLine headers line) = contentLength? headers := by
  unfold noteLine
  dsimp only
  split
  · refine contentLength?_putHeader (h.name_ne ?_)
    exact (List.takeWhile_prefix _).isInfix.trans (Text.trimChars_infix _)
  · rfl

/-- Where a line of a header block can lead. -/
inductive Leads (headers : Entries) (line : Bytes) : Point → Prop
  | skips (fault : FrameFault) : Leads headers line (.skipping fault)
  | notes (size : Nat) (filled : ¬ IsBlank line) :
      Leads headers line (.header (noteLine headers line) size none)
  | passes (size : Nat) (blank : IsBlank line) (empty : headers = []) :
      Leads headers line (.header [] size none)
  | sized (n : Nat) (blank : IsBlank line) (named : Wire.contentLength? headers = some n) :
      Leads headers line (.body n)

theorem afterLine_leads (headers : Entries) (size : Nat) (line : Bytes) :
    ∃ p, afterLine headers size line = .on p ∧ Leads headers line p := by
  rcases Nat.lt_or_ge headerLimit (size + line.length) with long | fits
  · exact ⟨_, if_pos long, .skips _⟩
  by_cases blank : IsBlank line
  · cases headers with
    | nil =>
      refine ⟨.header [] (size + line.length) none, ?_, .passes _ blank rfl⟩
      have empty : (Text.trimChars (Text.asciiLossy line)).isEmpty = true := List.isEmpty_iff.2 blank
      simp [afterLine, Nat.not_lt.2 fits, empty]
    | cons e more =>
      have ends := afterLine_blank blank fits (List.cons_ne_nil e more)
      split at ends
      · next n named => exact ⟨_, ends, .sized n blank named⟩
      · exact ⟨_, ends, .skips _⟩
  · exact ⟨_, afterLine_line headers size blank fits, .notes _ blank⟩

/-- Every line of a header block is taken whole, whatever its length. -/
theorem read_leads {line : Bytes} (h : IsLine line) (headers : Entries) (size : Nat)
    (rest : Bytes) : ∃ p, read (.header headers size none) ⟨line ++ rest, true⟩ =
      read p ⟨rest, true⟩ ∧ Leads headers line p := by
  have taken := Stream.readLine_newline h rest true
  split at taken
  · refine ⟨_, read_on ?_, .skips (.lineTooLong true)⟩
    simp only [step, taken]
  · obtain ⟨p, same, leads⟩ := afterLine_leads headers size line
    obtain ⟨b, bytes, rfl⟩ := List.exists_cons_of_ne_nil h.ne_nil
    refine ⟨p, read_on ?_, leads⟩
    simp only [step, taken, same]

theorem trimChars_glued (junk : Bytes) (n : Nat) :
    Text.trimChars (Text.asciiLossy (junk ++ lengthLine n)) =
      (Text.asciiLossy junk).dropWhile Text.isBlank ++
        ("Content-Length: ".toList ++ Nat.toDigits 10 n) := by
  have line : Text.asciiLossy (lengthLine n) =
      "Content-Length: ".toList ++ Nat.toDigits 10 n ++ ['\r', '\n'] := by
    refine Text.asciiLossy_bytesOf (Text.ascii_append.2 ⟨Text.ascii_append.2 ⟨?_, ?_⟩, by decide⟩)
    · decide +kernel
    · exact Text.ascii_digits n
  have start : (Text.asciiLossy (lengthLine n)).dropWhile Text.isBlank =
      "Content-Length: ".toList ++ Nat.toDigits 10 n ++ ['\r', '\n'] := by
    rw [line]
    rfl
  have lineEnd : ∀ c ∈ ['\r', '\n'], Text.isBlank c = true :=
    List.forall_mem_cons.2 ⟨rfl, List.forall_mem_singleton.2 rfl⟩
  have both : Text.asciiLossy (junk ++ lengthLine n) =
      Text.asciiLossy junk ++ Text.asciiLossy (lengthLine n) := List.map_append
  have dropped : (Text.asciiLossy (junk ++ lengthLine n)).dropWhile Text.isBlank =
      (Text.asciiLossy junk).dropWhile Text.isBlank ++
        ("Content-Length: ".toList ++ Nat.toDigits 10 n) ++ ['\r', '\n'] := by
    rw [both, List.dropWhile_append, start, line]
    split
    · next blank =>
      rw [List.isEmpty_iff.1 blank]
      rfl
    · simp only [List.append_assoc]
  rw [Text.trimChars, dropped]
  refine Text.dropEndWhile_append lineEnd ?_
  intro c hc
  have last := List.getLast?_eq_some_getLast (Nat.toDigits_ne_nil (b := 10) (n := n))
  rw [List.getLast?_append, List.getLast?_append, last, Option.some_or, Option.some_or] at hc
  have digit := Json.isDigit_of_mem_toDigits (List.mem_of_mem_getLast? (last.trans hc))
  exact Number.not_isBlank_of_isDigit digit

theorem not_isBlank_glued (junk : Bytes) (n : Nat) : ¬ IsBlank (junk ++ lengthLine n) := by
  rw [IsBlank, trimChars_glued]
  simp

theorem noteLine_glued_ne_nil (headers : Entries) (junk : Bytes) (n : Nat) :
    noteLine headers (junk ++ lengthLine n) ≠ [] := by
  rw [noteLine, trimChars_glued]
  have colon : ((Text.asciiLossy junk).dropWhile Text.isBlank ++
      ("Content-Length: ".toList ++ Nat.toDigits 10 n)).contains ':' = true := by simp
  simp only [colon, if_true]
  exact put_ne_nil _ _ _

theorem takeWhile_colon {name : List Char} (h : ':' ∉ name) (more : List Char) :
    (name ++ ':' :: more).takeWhile (· ≠ ':') = name := by
  have plain : ∀ c ∈ name, decide (c ≠ ':') = true := by
    rintro c hc
    refine decide_eq_true ?_
    rintro rfl
    exact h hc
  rw [List.takeWhile_append_of_pos plain, List.takeWhile_cons_of_neg (by simp), List.append_nil]

/-- A header line behind other bytes names its own length or none. -/
theorem Nameless.contentLength?_glued {junk : Bytes} (h : Nameless junk) {headers : Entries}
    (before : contentLength? headers = none) {n : Nat} (positive : 0 < n) :
    contentLength? (noteLine headers (junk ++ lengthLine n)) = some n ∨
      contentLength? (noteLine headers (junk ++ lengthLine n)) = none := by
  have glued := trimChars_glued junk n
  have inside : (Text.asciiLossy junk).dropWhile Text.isBlank <:+: Text.asciiLossy junk :=
    (List.dropWhile_suffix _).isInfix
  have filled := List.head?_dropWhile_not Text.isBlank (Text.asciiLossy junk)
  generalize (Text.asciiLossy junk).dropWhile Text.isBlank = front at glued inside filled
  have line : "Content-Length: ".toList ++ Nat.toDigits 10 n =
      "Content-Length".toList ++ ':' :: ' ' :: Nat.toDigits 10 n := rfl
  cases front with
  | nil =>
    left
    have same : noteLine headers (junk ++ lengthLine n) = noteLine headers (lengthLine n) := by
      rw [noteLine, noteLine, glued, trimChars_lengthLine, List.nil_append]
    rw [same]
    exact contentLength?_lengthLine positive headers
  | cons c front =>
    right
    have colon : (c :: front ++ ("Content-Length: ".toList ++ Nat.toDigits 10 n)).contains ':' = true := by
      simp
    unfold noteLine
    rw [glued]
    simp only [colon, if_true]
    rw [contentLength?_putHeader, before]
    by_cases named : ':' ∈ c :: front
    · -- The name ends before the header line.
      obtain ⟨name, more, same, plain⟩ := List.eq_append_cons_of_mem named
      rw [same] at inside ⊢
      rw [List.append_assoc, List.cons_append, takeWhile_colon plain]
      exact h.name_ne ((List.prefix_append _ _).isInfix.trans inside)
    · have plain : ':' ∉ c :: front ++ "Content-Length".toList := by
        rw [List.mem_append, not_or]
        exact ⟨named, by decide⟩
      have whole : Text.trimChars (c :: front ++ "Content-Length".toList) =
          c :: front ++ "Content-Length".toList := by
        refine Text.trimChars_eq_self (List.cons_ne_nil _ _) ?_ ?_
        · intro d hd
          cases hd
          exact filled
        · intro d hd
          rw [List.getLast?_append] at hd
          cases hd
          decide
      rw [line, ← List.append_assoc, takeWhile_colon plain, whole]
      intro same
      have longer := congrArg List.length same
      rw [List.length_map, List.length_append, List.length_cons] at longer
      have width : "Content-Length".toList.length = lengthHeader.toList.length := by decide
      omega

/-- What a frame behind other bytes comes to: its message is read next, or it is lost and what
follows it is looked for. -/
def Costs (content rest : Bytes) (p : Point) (buffer : Bytes) : Prop :=
  read p ⟨buffer, true⟩ = (messageOf content, ⟨rest, true⟩) ∨
    ∃ q left, read p ⟨buffer, true⟩ = read q ⟨left, true⟩ ∧ Between rest true q left

theorem Costs.of_read {content rest : Bytes} {p q : Point} {buffer left : Bytes}
    (same : read p ⟨buffer, true⟩ = read q ⟨left, true⟩) (h : Costs content rest q left) :
    Costs content rest p buffer := by
  unfold Costs
  rwa [same]

theorem framed_append (content rest : Bytes) :
    framed content ++ rest = lengthLine content.length ++ (crlf ++ (content ++ rest)) := by
  rw [framed, bytesOf_header]
  simp only [List.append_assoc]

/-- A header line behind bytes without a line end. -/
theorem Nameless.glued {junk content : Bytes} (h : Nameless junk) (plain : Stream.newline ∉ junk)
    (filled : content ≠ []) (rest : Bytes) (clear : Clear marker content rest) {headers : Entries}
    (before : contentLength? headers = none) (size : Nat) :
    Costs content rest (.header headers size none) (junk ++ (framed content ++ rest)) := by
  have positive : 0 < content.length := List.length_pos_iff.2 filled
  have line := isLine_lengthLine content.length
  have whole : IsLine (junk ++ lengthLine content.length) :=
    (Stream.isLine_append line.ne_nil).2 ⟨plain, line⟩
  rw [framed_append, ← List.append_assoc]
  obtain ⟨p, taken, leads⟩ := read_leads whole headers size (crlf ++ (content ++ rest))
  refine .of_read taken ?_
  have behind : Clear marker (crlf ++ content) rest :=
    clear_append.2 ⟨clear_blank isLine_crlf isBlank_crlf _, clear⟩
  cases leads with
  | skips fault =>
    rw [← List.append_assoc]
    exact .inr ⟨_, _, rfl, .lost fault _ behind⟩
  | passes size blank _ => exact absurd blank (not_isBlank_glued junk _)
  | sized n blank named => exact absurd blank (not_isBlank_glued junk _)
  | notes size _ =>
    have started := noteLine_glued_ne_nil headers junk content.length
    obtain ⟨p, taken, leads⟩ :=
      read_leads isLine_crlf (noteLine headers (junk ++ lengthLine content.length)) size
        (content ++ rest)
    refine .of_read taken ?_
    cases leads with
    | skips fault => exact .inr ⟨_, _, rfl, .lost fault _ clear⟩
    | passes size _ empty => exact absurd empty started
    | notes size filled => exact absurd isBlank_crlf filled
    | sized n blank named =>
      rcases h.contentLength?_glued before positive with known | unknown
      · rw [known] at named
        cases named
        refine .inl (read_out ?_)
        simp [step, Stream.readExactly]
      · rw [unknown] at named
        cases named

/-- A frame behind bytes that name no length. -/
theorem Nameless.costs {junk content : Bytes} (h : Nameless junk) (filled : content ≠ [])
    (fits : (header content.length).length ≤ headerLimit) (rest : Bytes)
    (clear : Clear marker content rest) {headers : Entries}
    (before : contentLength? headers = none) (size : Nat) :
    Costs content rest (.header headers size none) (junk ++ (framed content ++ rest)) := by
  induction hn : junk.length using Nat.strongRecOn generalizing junk headers size with
  | ind n ih =>
    subst hn
    by_cases ended : Stream.newline ∈ junk
    · obtain ⟨text, more, rfl, plain⟩ := List.eq_append_cons_of_mem ended
      have split : text ++ Stream.newline :: more = (text ++ [Stream.newline]) ++ more := by simp
      rw [split] at h ⊢
      have line : IsLine (text ++ [Stream.newline]) := ⟨text, plain, rfl⟩
      have first := h.of_infix (List.prefix_append _ _).isInfix
      have later := h.of_infix (List.suffix_append _ _).isInfix
      have shorter : more.length < (text ++ Stream.newline :: more).length := by
        rw [List.length_append, List.length_cons]
        omega
      obtain ⟨p, taken, leads⟩ := read_leads line headers size (more ++ (framed content ++ rest))
      rw [List.append_assoc]
      refine .of_read taken ?_
      cases leads with
      | skips fault =>
        have apart : Clear marker more (framed content ++ rest) := by
          rw [framed_append, lengthLine_eq, List.append_assoc]
          exact later.clear _
        exact .inl ((Between.lost fault more apart).read_framed filled fits)
      | notes size _ =>
        exact ih _ shorter later (by rw [first.contentLength?_noteLine, before]) size rfl
      | passes size _ _ => exact ih _ shorter later rfl size rfl
      | sized n blank named =>
        rw [before] at named
        cases named
    · exact h.glued ended filled rest clear before size

/-- A payload that its frame says everything about, in a body that no header can be taken from. -/
structure Framable (entries : Entries) : Prop where
  faithful : Json.Faithful (.map entries)
  unmarked : ¬ marker <:+: Text.bytesOf (body (.map entries))
  /-- Nothing longer can be held. -/
  held : (body (.map entries)).length < 2 ^ 63

theorem length_headerName : "Content-Length: ".toList.length = 16 := by decide

theorem length_header (n : Nat) : (header n).length = (Nat.toDigits 10 n).length + 20 := by
  unfold header
  simp only [List.length_append, length_headerName]
  generalize (Nat.toDigits 10 n).length = width
  simp only [List.length_cons, List.length_nil]
  omega

theorem length_header_le {n : Nat} (h : n < 2 ^ 63) : (header n).length ≤ headerLimit := by
  have digits : (Nat.toDigits 10 n).length ≤ 19 :=
    (Nat.length_toDigits_le_iff (by decide) (by decide)).2 (Nat.lt_trans h (by decide))
  have small : 19 + 20 ≤ headerLimit := by decide
  rw [length_header]
  exact Nat.le_trans (Nat.add_le_add_right digits 20) small

namespace Framable

variable {entries : Entries}

theorem fits (h : Framable entries) :
    (header (Text.bytesOf (body (.map entries))).length).length ≤ headerLimit := by
  rw [Text.length_bytesOf]
  exact length_header_le h.held

theorem clear (h : Framable entries) (rest : Bytes) :
    Clear marker (Text.bytesOf (body (.map entries))) rest := by
  obtain ⟨inner, closed⟩ : ∃ inner, Text.bytesOf (body (.map entries)) = inner ++ [125] := by
    refine ⟨Text.bytesOf ('{' :: Json.printEntries Json.compact entries), ?_⟩
    rw [body, Json.print, Text.bytesOf_append]
    rfl
  have unmarked := h.unmarked
  rw [closed] at unmarked ⊢
  refine clear_of_boundary (by decide) fun tail suffix starts => unmarked ?_
  exact (starts.isInfix.trans suffix.isInfix).trans (List.prefix_append _ _).isInfix

end Framable

def frames (payloads : List Entries) : Bytes := payloads.flatMap fun p => frame (.map p)

theorem frames_cons (first : Entries) (rest : List Entries) :
    frames (first :: rest) = framed (Text.bytesOf (body (.map first))) ++ frames rest := by
  rw [frames, List.flatMap_cons, frame_eq]
  rfl

def messages (payloads : List Entries) : List Told := payloads.map fun p => .message (.map p)

theorem readFrom_frames {payloads : List Entries} (each : ∀ p ∈ payloads, Framable p) {lost : Bool}
    {p : Point} {buffer : Bytes} (between : Between (frames payloads) lost p buffer) {count : Nat}
    (enough : payloads.length + 1 ≤ count) :
    (readFrom p count ⟨buffer, true⟩).map Reading.told =
      messages payloads ++ toldAtEnd (lost && payloads.isEmpty) := by
  induction payloads generalizing lost p buffer count with
  | nil =>
    obtain _ | count := count
    · exact absurd enough (Nat.not_succ_le_zero _)
    rcases between.read_end with ⟨rfl, ended⟩ | ⟨rfl, fault, last⟩
    · rw [readFrom, ended]
      rfl
    · rw [readFrom_out last (by simp)]
      rfl
  | cons payload rest ih =>
    obtain ⟨here, later⟩ := List.forall_mem_cons.1 each
    obtain _ | count := count
    · exact absurd enough (Nat.not_succ_le_zero _)
    have taken : read p ⟨buffer, true⟩ = (.message (.map payload), ⟨frames rest, true⟩) := by
      rw [← messageOf_body here.faithful]
      rw [frames_cons] at between
      exact between.read_framed (body_ne_nil here.faithful) here.fits
    have next := ih later .ready (Nat.le_of_succ_le_succ enough)
    rw [readFrom_out taken (by simp), readAll_succ, List.map_cons, next]
    simp [messages, Reading.told]

/-- Whatever stands in front of the frames, all messages are read or all but the first, each once
and in order. -/
theorem readAll_behind {junk : Bytes} (nameless : Nameless junk) {first : Entries}
    {rest : List Entries} (each : ∀ p ∈ first :: rest, Framable p) {count : Nat}
    (enough : rest.length + 3 ≤ count) :
    (readAll count (Stream.ofBytes (junk ++ frames (first :: rest)))).map Reading.told =
        messages (first :: rest) ++ [.ended] ∨
      (readAll count (Stream.ofBytes (junk ++ frames (first :: rest)))).map Reading.told =
        messages rest ++ toldAtEnd rest.isEmpty := by
  obtain ⟨here, later⟩ := List.forall_mem_cons.1 each
  obtain _ | count := count
  · exact absurd enough (Nat.not_succ_le_zero _)
  have shape : junk ++ frames (first :: rest) =
      junk ++ (framed (Text.bytesOf (body (.map first))) ++ frames rest) := by
    rw [frames, List.flatMap_cons, frame_eq]
    rfl
  have costs : Costs _ (frames rest) .start _ := nameless.costs (body_ne_nil here.faithful)
    here.fits (frames rest) (here.clear (frames rest)) contentLength?_nil 0
  rw [readAll_succ, Stream.ofBytes, shape]
  rcases costs with taken | ⟨q, left, same, between⟩
  · obtain _ | count := count
    · exact absurd enough (by omega)
    left
    have next := readFrom_frames later .ready (by omega : rest.length + 1 ≤ count)
    rw [messageOf_body here.faithful] at taken
    rw [readFrom_out taken (by simp), readAll_succ, List.map_cons, next]
    rfl
  · right
    rw [readFrom_congr same, readFrom_frames later between (by omega), Bool.true_and]

/-- Bytes without a line end, so that they stand on the first header line. -/
def noise : Bytes := Text.bytesOf "noise".toList

def numbered (n : Int) : Entries := [(.text "id", .int n)]

theorem framable_numbered : ∀ p ∈ [numbered 1, numbered 2], Framable p := by
  have faithful (n : Int) : Json.Faithful (.map (numbered n)) :=
    .record [("id", .int n)] (List.forall_mem_singleton.2 (.int n)) (by simp)
  refine List.forall_mem_cons.2 ⟨?_, List.forall_mem_singleton.2 ?_⟩
  · exact ⟨faithful 1, by decide +kernel, by decide⟩
  · exact ⟨faithful 2, by decide +kernel, by decide⟩

theorem readAll_noise : (Nameless noise ∧ ∀ p ∈ [numbered 1, numbered 2], Framable p) ∧
    ((readAll 4 (Stream.ofBytes (noise ++ frames [numbered 1, numbered 2]))).map Reading.told =
        messages [numbered 1, numbered 2] ++ [.ended] ∨
      (readAll 4 (Stream.ofBytes (noise ++ frames [numbered 1, numbered 2]))).map Reading.told =
        messages [numbered 2] ++ toldAtEnd false) := by
  have nameless : Nameless noise := by decide +kernel
  exact ⟨⟨nameless, framable_numbered⟩, readAll_behind nameless framable_numbered (by decide)⟩

example : (readAll 4 (Stream.ofBytes (noise ++ frames [numbered 1, numbered 2]))).map Reading.told =
    [.message (.map (numbered 2)), .ended] := by decide +kernel

end Wire
end LanguageClient
