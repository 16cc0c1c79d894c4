import LanguageClient.Proofs.Wire.Ending
import LanguageClient.Proofs.Wire.Garbage
import Mathlib.Data.List.Forall2

/-!
Header blocks whose names are spelled in different letter cases. A block says the same however its names
are spelled. But the reader that is lost behind a block without a usable length looks for the marker as it
is written: it passes over a frame whose header is spelled otherwise.
-/

namespace LanguageClient

namespace Text

theorem isBlank_letter {c : Char} (low : 65 ≤ c.toNat) (high : c.toNat ≤ 122) : isBlank c = false := by
  simp [isBlank]
  omega

theorem isBlank_toLower (c : Char) : isBlank c.toLower = isBlank c := by
  unfold Char.toLower
  split
  · next upper =>
    obtain ⟨low, high⟩ : 65 ≤ c.toNat ∧ c.toNat ≤ 90 := upper
    have lowered : (c.val + 32).toNat = c.toNat + 32 := by
      refine (UInt32.toNat_add _ _).trans (Nat.mod_eq_of_lt ?_)
      show c.toNat + 32 < 2 ^ 32
      omega
    have lowest : 65 ≤ (c.val + 32).toNat := by omega
    have highest : (c.val + 32).toNat ≤ 122 := by omega
    rw [isBlank_letter low (by omega)]
    exact isBlank_letter lowest highest
  · rfl

theorem toLower_dropWhile (cs : List Char) :
    (cs.dropWhile isBlank).map Char.toLower = (cs.map Char.toLower).dropWhile isBlank := by
  have same : isBlank ∘ Char.toLower = isBlank := funext isBlank_toLower
  rw [List.dropWhile_map, same]

theorem toLower_trimChars (cs : List Char) :
    (trimChars cs).map Char.toLower = trimChars (cs.map Char.toLower) := by
  rw [trimChars, trimChars, dropEndWhile, dropEndWhile, List.map_reverse, toLower_dropWhile,
    List.map_reverse, toLower_dropWhile]

theorem asciiChar_lowerByte (b : UInt8) : asciiChar (lowerByte b) = (asciiChar b).toLower :=
  (by decide +kernel : ∀ n : Fin 256, asciiChar (lowerByte (.ofFin n)) = (asciiChar (.ofFin n)).toLower)
    b.toFin

theorem asciiLossy_lower (bytes : Bytes) :
    asciiLossy (bytes.map lowerByte) = (asciiLossy bytes).map Char.toLower := by
  have lossy : asciiLossy = List.map asciiChar := rfl
  rw [lossy, List.map_map, List.map_map]
  exact List.map_congr_left fun b _ => asciiChar_lowerByte b

/-- What is no letter is in no other spelling either. -/
theorem mem_of_lower {name other : Bytes} (same : other.map lowerByte = name.map lowerByte) {b : UInt8}
    (fixed : ∀ c, lowerByte c = lowerByte b → c = b) (inside : b ∈ other) : b ∈ name := by
  have lowered : lowerByte b ∈ name.map lowerByte := same ▸ List.mem_map_of_mem inside
  obtain ⟨c, hc, eq⟩ := List.mem_map.1 lowered
  exact fixed c eq ▸ hc

theorem trimChars_colon (name more : List Char) :
    trimChars (name ++ ':' :: more) =
      name.dropWhile isBlank ++ ':' :: dropEndWhile isBlank more := by
  have start : (name ++ ':' :: more).dropWhile isBlank = name.dropWhile isBlank ++ ':' :: more := by
    rw [List.dropWhile_append]
    split
    · next blank =>
      rw [List.isEmpty_iff.1 blank]
      rfl
    · rfl
  have stop : (more.reverse ++ ':' :: (name.dropWhile isBlank).reverse).dropWhile isBlank =
      more.reverse.dropWhile isBlank ++ ':' :: (name.dropWhile isBlank).reverse := by
    rw [List.dropWhile_append]
    split
    · next blank =>
      rw [List.isEmpty_iff.1 blank]
      rfl
    · rfl
  rw [trimChars, start, dropEndWhile, List.reverse_append, List.reverse_cons, List.append_assoc,
    List.singleton_append, stop]
  simp [dropEndWhile]

end Text

namespace Wire

open Text (Bytes)
open Wire.Stream (IsLine marker)

theorem forall_mem_of_forall₂ {α β : Type} {R : α → β → Prop} {P : α → Prop} {Q : β → Prop}
    {xs : List α} {ys : List β} (h : List.Forall₂ R xs ys) (step : ∀ {x y}, R x y → P x → Q y)
    (all : ∀ x ∈ xs, P x) : ∀ y ∈ ys, Q y := by
  induction h with
  | nil => exact fun _ none => nomatch none
  | cons here _ ih =>
    obtain ⟨first, later⟩ := List.forall_mem_cons.1 all
    exact List.forall_mem_cons.2 ⟨step here first, ih later⟩

/-- What ends the name on a header line. -/
def colon : UInt8 := 58

theorem asciiLossy_named (name more : Bytes) :
    Text.asciiLossy (name ++ colon :: more) = Text.asciiLossy name ++ ':' :: Text.asciiLossy more := by
  rw [Text.asciiLossy, List.map_append, List.map_cons]
  rfl

theorem colon_notMem_asciiLossy {name : Bytes} (plain : colon ∉ name) : ':' ∉ Text.asciiLossy name := by
  intro inside
  obtain ⟨b, hb, same⟩ := List.mem_map.1 inside
  have only := (by decide +kernel : ∀ n : Fin 256, Text.asciiChar (.ofFin n) = ':' → UInt8.ofFin n = colon)
    b.toFin same
  exact plain (only ▸ hb)

/-- The key that a name in lower case stands for. -/
def keyOf (lowered : Bytes) : Key :=
  .text (String.ofList (Text.trimChars ((Text.asciiLossy lowered).dropWhile Text.isBlank)))

def valueOf (more : Bytes) : Value :=
  .text (String.ofList (Text.trimChars (Text.dropEndWhile Text.isBlank (Text.asciiLossy more))))

/-- Of a name on a header line only the lower case counts. -/
theorem noteLine_named {name : Bytes} (plain : colon ∉ name) (more : Bytes) (headers : Entries) :
    noteLine headers (name ++ colon :: more) =
      Entries.put (keyOf (name.map Text.lowerByte)) (valueOf more) headers := by
  have text := asciiLossy_named name more ▸
    Text.trimChars_colon (Text.asciiLossy name) (Text.asciiLossy more)
  have free : ':' ∉ (Text.asciiLossy name).dropWhile Text.isBlank := fun inside =>
    colon_notMem_asciiLossy plain ((List.dropWhile_suffix _).mem inside)
  have lowered : (Text.trimChars ((Text.asciiLossy name).dropWhile Text.isBlank)).map Char.toLower =
      Text.trimChars ((Text.asciiLossy (name.map Text.lowerByte)).dropWhile Text.isBlank) := by
    rw [Text.toLower_trimChars, Text.toLower_dropWhile, Text.asciiLossy_lower]
  rw [noteLine, text, keyOf, valueOf, ← lowered]
  generalize (Text.asciiLossy name).dropWhile Text.isBlank = front at free
  generalize Text.dropEndWhile Text.isBlank (Text.asciiLossy more) = back
  have colons : (front ++ ':' :: back).contains ':' = true := by simp
  have behind : (front ++ ':' :: back).drop (front.length + 1) = back := by simp
  simp only [colons, if_true, putHeader, takeWhile_colon free, behind]

/-- The same line, its name spelled in other letter cases. -/
inductive Respelled : Bytes → Bytes → Prop
  | same (line : Bytes) : Respelled line line
  | named {name other : Bytes} (more : Bytes) (plain : colon ∉ name)
      (lowered : other.map Text.lowerByte = name.map Text.lowerByte) :
      Respelled (name ++ colon :: more) (other ++ colon :: more)

theorem not_isBlank_named (name more : Bytes) : ¬ IsBlank (name ++ colon :: more) := by
  rw [IsBlank, asciiLossy_named, Text.trimChars_colon]
  simp

namespace Respelled

variable {line other : Bytes}

/-- A byte that is in one spelling only is a letter. -/
theorem notMem {name other : Bytes} {b : UInt8} (separates : b = colon ∨ b = Stream.newline)
    (plain : b ∉ name) (lowered : other.map Text.lowerByte = name.map Text.lowerByte) : b ∉ other := by
  have fixed : ∀ n : Fin 256, (Text.lowerByte (.ofFin n) = Text.lowerByte colon → UInt8.ofFin n = colon) ∧
      (Text.lowerByte (.ofFin n) = Text.lowerByte Stream.newline → UInt8.ofFin n = Stream.newline) := by
    decide +kernel
  intro inside
  rcases separates with rfl | rfl
  · exact plain (Text.mem_of_lower lowered (fun c => (fixed c.toFin).1) inside)
  · exact plain (Text.mem_of_lower lowered (fun c => (fixed c.toFin).2) inside)

theorem noteLine (h : Respelled line other) (headers : Entries) :
    Wire.noteLine headers other = Wire.noteLine headers line := by
  cases h with
  | same => rfl
  | named more plain lowered =>
    rw [noteLine_named plain, noteLine_named (notMem (.inl rfl) plain lowered), lowered]

theorem length_eq (h : Respelled line other) : other.length = line.length := by
  cases h with
  | same => rfl
  | named more plain lowered =>
    have lengths := congrArg List.length lowered
    rw [List.length_map, List.length_map] at lengths
    rw [List.length_append, List.length_append, lengths]

theorem isLine (h : Respelled line other) (whole : IsLine line ∧ ¬ IsBlank line) :
    IsLine other ∧ ¬ IsBlank other := by
  cases h with
  | same => exact whole
  | named more plain lowered =>
    have filled : colon :: more ≠ [] := List.cons_ne_nil _ _
    obtain ⟨free, ends⟩ := (Stream.isLine_append filled).1 whole.1
    exact ⟨(Stream.isLine_append filled).2 ⟨notMem (.inr rfl) free lowered, ends⟩,
      not_isBlank_named _ more⟩

variable {lines others : List Bytes}

theorem foldl_noteLine (h : List.Forall₂ Respelled lines others) (headers : Entries) :
    others.foldl Wire.noteLine headers = lines.foldl Wire.noteLine headers := by
  induction h generalizing headers with
  | nil => rfl
  | cons here _ ih => rw [List.foldl_cons, List.foldl_cons, here.noteLine, ih]

theorem length_flatten (h : List.Forall₂ Respelled lines others) :
    others.flatten.length = lines.flatten.length := by
  induction h with
  | nil => rfl
  | cons here _ ih =>
    rw [List.flatten_cons, List.flatten_cons, List.length_append, List.length_append, here.length_eq, ih]

end Respelled

/-- A header block and a body. -/
structure Packet where
  lines : List Bytes
  blank : Bytes
  content : Bytes

namespace Packet

def bytes (p : Packet) : Bytes := p.lines.flatten ++ (p.blank ++ p.content)

/-- The length that the block names. -/
def length? (p : Packet) : Option Nat := contentLength? (p.lines.foldl noteLine [])

/-- A line of the block begins as it has to for a reader that is lost. -/
def marked (p : Packet) : Bool := p.lines.any marker.isPrefixOf

/-- Whether the body is read, by a reader that is lost or not. -/
def taken (lost : Bool) (p : Packet) : Bool := (!lost || p.marked) && p.length?.isSome

structure Valid (p : Packet) : Prop where
  each : ∀ line ∈ p.lines, IsLine line ∧ ¬ IsBlank line
  named : p.lines.foldl noteLine [] ≠ []
  last : IsLine p.blank ∧ IsBlank p.blank
  fits : (p.lines.flatten ++ p.blank).length ≤ headerLimit
  sized : ∀ n, p.length? = some n → n = p.content.length

end Packet

def packed (packets : List Packet) : Bytes := packets.flatMap Packet.bytes

theorem packed_cons (p : Packet) (rest : List Packet) : packed (p :: rest) = p.bytes ++ packed rest :=
  List.flatMap_cons

/-- What reading the packets tells a reader that is lost or not. -/
def heard : (lost : Bool) → List Packet → List Told
  | lost, [] => toldAtEnd lost
  | lost, p :: rest =>
    if p.taken lost then (messageOf p.content).told :: heard false rest else heard true rest

/-- A reader that is lost finds markers only where a line of a header block begins. -/
def Unmixed : (lost : Bool) → List Packet → Prop
  | _, [] => True
  | lost, p :: rest =>
    (lost = true → ∀ line ∈ p.lines, Clear marker line.tail []) ∧
      (p.taken lost = false → Clear marker p.content (packed rest)) ∧ Unmixed (!p.taken lost) rest

/-- Where a header block leads that names such a length, or none. -/
def Follows : Option Nat → Point → Prop
  | some n, p => p = .body n
  | none, p => ∃ fault, p = .skipping fault

theorem read_block {lines : List Bytes} {blank : Bytes} {headers : Entries} {size : Nat}
    (each : ∀ line ∈ lines, IsLine line ∧ ¬ IsBlank line) (last : IsLine blank ∧ IsBlank blank)
    (named : lines.foldl noteLine headers ≠ [])
    (fits : size + (lines.flatten ++ blank).length ≤ headerLimit) (rest : Bytes) :
    ∃ p, read (.header headers size none) ⟨lines.flatten ++ (blank ++ rest), true⟩ =
      read p ⟨rest, true⟩ ∧ Follows (contentLength? (lines.foldl noteLine headers)) p := by
  rw [List.length_append] at fits
  rw [read_lines each (by omega), read_blank last.1 last.2 (by omega) named]
  split
  · next n known => exact ⟨_, rfl, by rw [known]; rfl⟩
  · next unknown => exact ⟨_, rfl, by rw [unknown]; exact ⟨_, rfl⟩⟩

theorem noteLine_cases (line : Bytes) :
    (∃ k v, ∀ headers, noteLine headers line = Entries.put k v headers) ∨
      ∀ headers, noteLine headers line = headers := by
  unfold noteLine
  dsimp only
  split
  · exact .inl ⟨_, _, fun _ => rfl⟩
  · exact .inr fun _ => rfl

theorem lookup?_foldl {k : Key} {headers others : Entries}
    (same : Entries.lookup? k headers = Entries.lookup? k others) (lines : List Bytes) :
    Entries.lookup? k (lines.foldl noteLine headers) = Entries.lookup? k (lines.foldl noteLine others) := by
  induction lines generalizing headers others with
  | nil => exact same
  | cons line lines ih =>
    refine ih ?_
    rcases noteLine_cases line with ⟨k', v, puts⟩ | keeps
    · rw [puts, puts, Entries.lookup?_put, Entries.lookup?_put, same]
    · rw [keeps, keeps, same]

theorem keyOf_marker : keyOf ((marker.take 14).map Text.lowerByte) = .text lengthHeader := by decide +kernel

/-- A block that is entered at a line with the marker names the same length as the whole block. -/
theorem contentLength?_entered {line : Bytes} (starts : marker <+: line) (headers others : Entries)
    (later : List Bytes) : contentLength? (later.foldl noteLine (noteLine headers line)) =
      contentLength? (later.foldl noteLine (noteLine others line)) := by
  obtain ⟨tail, rfl⟩ := starts
  have shape : marker ++ tail = marker.take 14 ++ colon :: tail := rfl
  have plain : colon ∉ marker.take 14 := by decide
  have same : Entries.lookup? (.text lengthHeader) (noteLine headers (marker ++ tail)) =
      Entries.lookup? (.text lengthHeader) (noteLine others (marker ++ tail)) := by
    rw [shape, noteLine_named plain, noteLine_named plain, keyOf_marker, Entries.lookup?_put,
      Entries.lookup?_put, Key.same_refl, if_pos rfl, if_pos rfl]
  rw [contentLength?, contentLength?, Entries.field?, Entries.field?, lookup?_foldl same]

section Packet

variable {p : Packet} {rest : Bytes} {lost : Bool} {q : Point} {buffer : Bytes}

theorem clear_lines {lines : List Bytes} (each : ∀ line ∈ lines, IsLine line)
    (starts : ∀ line ∈ lines, ¬ marker <+: line) (later : ∀ line ∈ lines, Clear marker line.tail [])
    (rest : Bytes) : Clear marker lines.flatten rest :=
  clear_flatten (fun line inside => clear_line (each line inside) (starts line inside)
    (later line inside)) rest

theorem Packet.split_of_marked {p : Packet} (h : p.marked = true) :
    ∃ before tail later, p.lines = before ++ (marker ++ tail) :: later ∧
      ∀ line ∈ before, ¬ marker <+: line := by
  obtain ⟨line, found⟩ := Option.isSome_iff_exists.1 (List.find?_isSome.2 (List.any_eq_true.1 h))
  obtain ⟨here, before, later, same, others⟩ := List.find?_eq_some_iff_append.1 found
  obtain ⟨tail, rfl⟩ := List.isPrefixOf_iff_prefix.1 here
  refine ⟨before, tail, later, same, fun line inside starts => ?_⟩
  have other := others line inside
  rw [List.isPrefixOf_iff_prefix.2 starts] at other
  cases other

/-- The reader that is lost enters a block at the first line with the marker. -/
theorem read_marked (valid : p.Valid) (marked : p.marked = true)
    (starts : ∀ line ∈ p.lines, Clear marker line.tail []) (fault : FrameFault) {junk : Bytes}
    (clear : Clear marker junk (p.bytes ++ rest)) :
    ∃ q, read (.skipping fault) ⟨junk ++ (p.bytes ++ rest), true⟩ = read q ⟨p.content ++ rest, true⟩ ∧
      Follows p.length? q := by
  obtain ⟨before, tail, later, lines, others⟩ := Packet.split_of_marked marked
  obtain ⟨_, blank, content⟩ := p
  obtain rfl := lines
  obtain ⟨each, -, last, fits, -⟩ := valid
  obtain ⟨eachBefore, eachAfter⟩ := List.forall_mem_append.1 each
  obtain ⟨⟨whole, filled⟩, eachLater⟩ := List.forall_mem_cons.1 eachAfter
  have free := clear_lines (fun line inside => (eachBefore line inside).1)
    others (List.forall_mem_append.1 starts).1
    (marker ++ tail ++ (later.flatten ++ (blank ++ (content ++ rest))))
  have shape : (before ++ (marker ++ tail) :: later).flatten ++ (blank ++ content) ++ rest =
      before.flatten ++ (marker ++ tail ++ (later.flatten ++ (blank ++ (content ++ rest)))) := by
    simp only [List.flatten_append, List.flatten_cons, List.append_assoc]
  simp only [Packet.bytes, shape] at clear ⊢
  simp only [List.flatten_append, List.flatten_cons, List.length_append] at fits
  have between := Between.lost fault (junk ++ before.flatten) (clear_append.2 ⟨clear, free⟩)
  have width : (marker ++ tail).length = marker.length + tail.length := List.length_append
  have noted := afterLine_line [] 0 filled (by omega)
  have entered : step (.header [] 0 (some (marker ++ tail)))
      ⟨later.flatten ++ (blank ++ (content ++ rest)), true⟩ =
        (.on (.header (noteLine [] (marker ++ tail)) (0 + (marker ++ tail).length) none),
          ⟨later.flatten ++ (blank ++ (content ++ rest)), true⟩) := by
    rw [step, noted]
  have small : 0 + (marker ++ tail).length + (later.flatten ++ blank).length ≤ headerLimit := by
    have both := @List.length_append _ later.flatten blank
    omega
  obtain ⟨q, same, follows⟩ := read_block eachLater last
    (foldl_noteLine_ne_nil (.inl (noteLine_marker (List.prefix_append marker tail)))) small
    (content ++ rest)
  refine ⟨q, ?_, ?_⟩
  · rw [← List.append_assoc, between.enter (isLine_of_marker whole) (by omega), read_on entered, same]
  · rw [Packet.length?, List.foldl_append, List.foldl_cons,
      contentLength?_entered (List.prefix_append marker tail) _ []]
    exact follows

/-- The reader that is not lost enters every block, the one that is lost those with the marker. -/
theorem Between.read_entered (between : Between (p.bytes ++ rest) lost q buffer) (valid : p.Valid)
    (entered : lost = true → p.marked = true)
    (starts : lost = true → ∀ line ∈ p.lines, Clear marker line.tail []) :
    ∃ q', read q ⟨buffer, true⟩ = read q' ⟨p.content ++ rest, true⟩ ∧ Follows p.length? q' := by
  cases between with
  | ready =>
    have fits : 0 + (p.lines.flatten ++ p.blank).length ≤ headerLimit := by
      rw [Nat.zero_add]
      exact valid.fits
    have shape : p.bytes ++ rest = p.lines.flatten ++ (p.blank ++ (p.content ++ rest)) := by
      simp only [Packet.bytes, List.append_assoc]
    rw [shape]
    exact read_block valid.each valid.last valid.named fits (p.content ++ rest)
  | lost fault junk clear => exact read_marked valid (entered rfl) (starts rfl) fault clear

/-- A block without the marker is passed over with its body. -/
theorem Between.passed (between : Between (p.bytes ++ rest) true q buffer) (valid : p.Valid)
    (unmarked : p.marked = false) (starts : ∀ line ∈ p.lines, Clear marker line.tail [])
    (clear : Clear marker p.content rest) : Between rest true q buffer := by
  cases between with
  | lost fault junk before =>
    have others : ∀ line ∈ p.lines, ¬ marker <+: line := fun line inside here =>
      List.any_eq_false.1 unmarked line inside (List.isPrefixOf_iff_prefix.2 here)
    have whole : Clear marker p.bytes rest := by
      rw [Packet.bytes, clear_append, clear_append]
      exact ⟨clear_lines (fun line inside => (valid.each line inside).1) others starts _,
        clear_blank valid.last.1 valid.last.2 _, clear⟩
    rw [← List.append_assoc]
    exact .lost fault (junk ++ p.bytes) (clear_append.2 ⟨before, whole⟩)

theorem Between.read_taken (between : Between (p.bytes ++ rest) lost q buffer) (valid : p.Valid)
    (taken : p.taken lost = true)
    (starts : lost = true → ∀ line ∈ p.lines, Clear marker line.tail []) :
    read q ⟨buffer, true⟩ = (messageOf p.content, ⟨rest, true⟩) := by
  obtain ⟨entered, known⟩ := Bool.and_eq_true_iff.1 taken
  obtain ⟨n, known⟩ := Option.isSome_iff_exists.1 known
  obtain ⟨q', same, follows⟩ := between.read_entered valid (by rintro rfl; simpa using entered) starts
  rw [known] at follows
  rw [same, show q' = .body n from follows, valid.sized n known]
  refine read_out ?_
  simp [step, Stream.readExactly]

theorem Between.read_untaken (between : Between (p.bytes ++ rest) lost q buffer) (valid : p.Valid)
    (untaken : p.taken lost = false)
    (starts : lost = true → ∀ line ∈ p.lines, Clear marker line.tail [])
    (clear : Clear marker p.content rest) :
    ∃ q' buffer', read q ⟨buffer, true⟩ = read q' ⟨buffer', true⟩ ∧ Between rest true q' buffer' := by
  cases entered : !lost || p.marked with
  | true =>
    obtain ⟨q', same, follows⟩ := between.read_entered valid (by rintro rfl; simpa using entered) starts
    rw [Packet.taken, entered, Bool.true_and, Option.isSome_eq_false_iff, Option.isNone_iff_eq_none]
      at untaken
    rw [untaken] at follows
    obtain ⟨fault, rfl⟩ := follows
    exact ⟨_, _, same, .lost fault p.content clear⟩
  | false =>
    obtain ⟨rfl, unmarked⟩ : lost = true ∧ p.marked = false := by simpa using entered
    exact ⟨q, buffer, rfl, between.passed valid unmarked (starts rfl) clear⟩

end Packet

theorem heard_length_pos (lost : Bool) (packets : List Packet) : 0 < (heard lost packets).length := by
  induction packets generalizing lost with
  | nil => cases lost <;> decide
  | cons p rest ih =>
    rw [heard]
    split
    · exact Nat.succ_pos _
    · exact ih true

theorem messageOf_ne_ended (bytes : Bytes) : messageOf bytes ≠ .ended := by
  intro same
  have tells := messageOf_tells bytes
  rw [same] at tells
  cases tells

theorem readFrom_packets {packets : List Packet} (valid : ∀ p ∈ packets, p.Valid) {lost : Bool}
    (unmixed : Unmixed lost packets) {q : Point} {buffer : Bytes}
    (between : Between (packed packets) lost q buffer) {count : Nat}
    (enough : (heard lost packets).length ≤ count + 1) :
    (readFrom q count ⟨buffer, true⟩).map Reading.told = heard lost packets := by
  -- A packet that is not taken leaves the reader lost and tells nothing.
  induction packets generalizing lost q buffer count with
  | nil =>
    rcases between.read_end with ⟨rfl, ended⟩ | ⟨rfl, fault, last⟩
    · rw [readFrom, ended]
      rfl
    · obtain _ | count := count
      · exact absurd enough (by decide)
      · rw [readFrom_out last (by simp)]
        rfl
  | cons p rest ih =>
    obtain ⟨here, later⟩ := List.forall_mem_cons.1 valid
    obtain ⟨starts, clear, unmixed⟩ := unmixed
    rw [packed_cons] at between
    cases taken : p.taken lost with
    | true =>
      rw [heard, if_pos taken] at enough ⊢
      rw [taken] at unmixed
      obtain _ | count := count
      · exact absurd (heard_length_pos false rest) (Nat.not_lt.2 (Nat.le_of_succ_le_succ enough))
      rw [readFrom_out (between.read_taken here taken starts) (messageOf_ne_ended _), readAll_succ,
        List.map_cons, ih later unmixed .ready (Nat.le_of_succ_le_succ enough)]
      rfl
    | false =>
      have not : ¬ p.taken lost = true := by simp [taken]
      rw [heard, if_neg not] at enough ⊢
      rw [taken] at unmixed
      obtain ⟨q', buffer', same, behind⟩ := between.read_untaken here taken starts (clear taken)
      rw [readFrom_congr same]
      exact ih later unmixed behind enough

/-- What a stream of header blocks and bodies tells. -/
theorem readAll_packets {packets : List Packet} (valid : ∀ p ∈ packets, p.Valid)
    (unmixed : Unmixed false packets) {count : Nat} (enough : (heard false packets).length ≤ count) :
    (readAll count (Stream.ofBytes (packed packets))).map Reading.told = heard false packets := by
  obtain _ | count := count
  · exact absurd (heard_length_pos false packets) (Nat.not_lt.2 enough)
  · exact readFrom_packets valid unmixed .ready enough

/-- A packet with the names in its block spelled in other letter cases. -/
structure Packet.Respelled (p q : Packet) : Prop where
  lines : List.Forall₂ Wire.Respelled p.lines q.lines
  blank : q.blank = p.blank
  content : q.content = p.content

namespace Packet.Respelled

variable {p q : Packet}

theorem length?_eq (h : Packet.Respelled p q) : q.length? = p.length? := by
  rw [Packet.length?, Packet.length?, Respelled.foldl_noteLine h.lines]

theorem valid (h : Packet.Respelled p q) (valid : p.Valid) : q.Valid where
  each := forall_mem_of_forall₂ h.lines Respelled.isLine valid.each
  named := by
    rw [Respelled.foldl_noteLine h.lines]
    exact valid.named
  last := h.blank ▸ valid.last
  fits := by
    rw [List.length_append, Respelled.length_flatten h.lines, h.blank, ← List.length_append]
    exact valid.fits
  sized n known := by
    rw [h.content]
    exact valid.sized n (h.length?_eq ▸ known)

end Packet.Respelled

/-- Behind a block without a usable length the next one with such a length has the marker. -/
def Legible : (lost : Bool) → List Packet → Prop
  | _, [] => True
  | lost, p :: rest =>
    (lost = true → p.length?.isSome = true → p.marked = true) ∧ Legible (!p.length?.isSome) rest

theorem taken_of_legible {p : Packet} {lost : Bool}
    (h : lost = true → p.length?.isSome = true → p.marked = true) : p.taken lost = p.length?.isSome := by
  unfold Packet.taken
  cases lost with
  | false => rfl
  | true =>
    cases known : p.length?.isSome with
    | false => exact Bool.and_false _
    | true => rw [h rfl known]; rfl

/-- No block that is found is lost to its spelling. -/
theorem heard_respelled {packets others : List Packet}
    (same : List.Forall₂ Packet.Respelled packets others) {lost : Bool} (legible : Legible lost packets)
    (legible' : Legible lost others) : heard lost others = heard lost packets := by
  induction same generalizing lost with
  | nil => rfl
  | @cons p q packets others here _ ih =>
    obtain ⟨found, later⟩ := legible
    obtain ⟨found', later'⟩ := legible'
    rw [heard, heard, taken_of_legible found, taken_of_legible found', here.length?_eq, here.content]
    rw [here.length?_eq] at later'
    cases known : p.length?.isSome with
    | true =>
      rw [known] at later later'
      have next : heard false others = heard false packets := ih later later'
      rw [if_pos rfl, if_pos rfl, next]
    | false =>
      rw [known] at later later'
      have next : heard true others = heard true packets := ih later later'
      rw [if_neg Bool.false_ne_true, if_neg Bool.false_ne_true, next]

section Two

variable {packets others : List Packet} {count : Nat}

/-- How the names are spelled makes no difference, as long as both spellings are legible. -/
theorem readAll_respelled (valid : ∀ p ∈ packets, p.Valid)
    (same : List.Forall₂ Packet.Respelled packets others)
    (unmixed : Unmixed false packets) (unmixed' : Unmixed false others)
    (legible : Legible false packets) (legible' : Legible false others)
    (enough : (heard false packets).length ≤ count) :
    (readAll count (Stream.ofBytes (packed others))).map Reading.told =
      (readAll count (Stream.ofBytes (packed packets))).map Reading.told := by
  have valid' := forall_mem_of_forall₂ same Packet.Respelled.valid valid
  have heard' := heard_respelled same legible legible'
  rw [readAll_packets valid unmixed enough, readAll_packets valid' unmixed' (heard' ▸ enough), heard']

/-- A reader that is never lost needs no marker. -/
theorem unmixed_of_usable (usable : ∀ p ∈ packets, p.length?.isSome = true) :
    Unmixed false packets ∧ Legible false packets := by
  induction packets with
  | nil => exact ⟨trivial, trivial⟩
  | cons p rest ih =>
    obtain ⟨here, later⟩ := List.forall_mem_cons.1 usable
    obtain ⟨unmixed, legible⟩ := ih later
    have taken : p.taken false = true := here
    refine ⟨⟨?_, ?_, ?_⟩, ?_, ?_⟩
    · exact fun lost => nomatch lost
    · rw [taken]
      exact fun untaken => nomatch untaken
    · rw [taken]
      exact unmixed
    · exact fun lost => nomatch lost
    · rw [here]
      exact legible

/-- While all blocks have usable lengths, every spelling is read the same. -/
theorem readAll_usable (valid : ∀ p ∈ packets, p.Valid)
    (usable : ∀ p ∈ packets, p.length?.isSome = true)
    (same : List.Forall₂ Packet.Respelled packets others)
    (enough : (heard false packets).length ≤ count) :
    (readAll count (Stream.ofBytes (packed others))).map Reading.told =
      (readAll count (Stream.ofBytes (packed packets))).map Reading.told := by
  have usable' : ∀ q ∈ others, q.length?.isSome = true :=
    forall_mem_of_forall₂ same (fun respelled known => respelled.length?_eq ▸ known) usable
  obtain ⟨unmixed, legible⟩ := unmixed_of_usable usable
  obtain ⟨unmixed', legible'⟩ := unmixed_of_usable usable'
  exact readAll_respelled valid same unmixed unmixed' legible legible' enough

end Two

/-- A block without a length, and a frame whose header is spelled in some way. -/
def behindStray (name : String) : List Packet :=
  [⟨[Text.bytesOf "X: y\r\n".toList], crlf, []⟩,
    ⟨[Text.bytesOf (name ++ ": 2\r\n").toList], crlf, Text.bytesOf "\x7b\x7d".toList⟩]

/-- The frame is read, and with its header spelled otherwise it is not. -/
theorem readAll_behindStray :
    (readAll 2 (Stream.ofBytes (packed (behindStray "Content-Length")))).map Reading.told =
        [.message (.map []), .ended] ∧
      (readAll 2 (Stream.ofBytes (packed (behindStray "content-length")))).map Reading.told =
        [.fault, .ended] := by
  decide +kernel

end Wire
end LanguageClient
