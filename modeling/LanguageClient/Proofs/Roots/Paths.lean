import LanguageClient.Proofs.Roots.Segments

/-!
A path that starts at a root of the file system becomes an address, and is read back from it in its
normal form, whatever characters it has.
-/

namespace LanguageClient

namespace Text.Utf8

/-- The first byte of a longer character, by its bounds and its bits. -/
theorem first_of_lead {b least greatest : UInt8} {tails : Nat} (large : ¬ b < 0x80)
    (lead : lead? b = some (least, greatest, tails)) :
    first b = .more ⟨b.toNat % Nat.pow 2 (6 - tails), tails, least, greatest⟩ := by
  simp only [first, if_neg large, start, lead, Option.map_some]

theorem first_two {k : Nat} (low : 2 ≤ k) (high : k < 0x20) :
    first (0xc0 + k).toUInt8 = .more ⟨k, 1, 0x80, 0xbf⟩ := by
  have lead : ∀ k : Fin 0x20, 2 ≤ k.val → let b := (0xc0 + k.val).toUInt8
      ¬ b < 0x80 ∧ lead? b = some (0x80, 0xbf, 1) ∧ b.toNat % Nat.pow 2 5 = k.val := by decide
  obtain ⟨large, bounds, bits⟩ := lead ⟨k, high⟩ low
  rw [first_of_lead large bounds, bits]

theorem first_three {k : Nat} (high : k < 0x10) : first (0xe0 + k).toUInt8 =
    .more ⟨k, 2, if k = 0 then 0xa0 else 0x80, if k = 0xd then 0x9f else 0xbf⟩ := by
  have lead : ∀ k : Fin 0x10, let b := (0xe0 + k.val).toUInt8
      ¬ b < 0x80 ∧ lead? b = some (if k.val = 0 then 0xa0 else 0x80,
        if k.val = 0xd then 0x9f else 0xbf, 2) ∧ b.toNat % Nat.pow 2 4 = k.val := by decide
  obtain ⟨large, bounds, bits⟩ := lead ⟨k, high⟩
  rw [first_of_lead large bounds, bits]

theorem first_four {k : Nat} (high : k < 5) : first (0xf0 + k).toUInt8 =
    .more ⟨k, 3, if k = 0 then 0x90 else 0x80, if k = 4 then 0x8f else 0xbf⟩ := by
  have lead : ∀ k : Fin 5, let b := (0xf0 + k.val).toUInt8
      ¬ b < 0x80 ∧ lead? b = some (if k.val = 0 then 0x90 else 0x80,
        if k.val = 4 then 0x8f else 0xbf, 3) ∧ b.toNat % Nat.pow 2 3 = k.val := by decide
  obtain ⟨large, bounds, bits⟩ := lead ⟨k, high⟩
  rw [first_of_lead large bounds, bits]

section

variable {bits owed k : Nat} {least greatest : UInt8} {c : Char}

/-- A tail within the bounds of a character in progress adds its six bits. -/
theorem next_tail (small : k < 0x40) (low : least.toNat ≤ 0x80 + k) (high : 0x80 + k ≤ greatest.toNat) :
    Unfinished.next ⟨bits, owed, least, greatest⟩ (0x80 + k).toUInt8 =
      if owed ≤ 1 then .char (Char.ofNat (bits * 0x40 + k))
      else .more ⟨bits * 0x40 + k, owed - 1, 0x80, 0xbf⟩ := by
  have value : (0x80 + k).toUInt8.toNat = 0x80 + k := by simp; omega
  have within : (least ≤ (0x80 + k).toUInt8 && (0x80 + k).toUInt8 ≤ greatest) = true := by
    simp only [Bool.and_eq_true, decide_eq_true_eq, UInt8.le_iff_toNat_le, value]
    exact ⟨low, high⟩
  have six : (0x80 + k) % 0x40 = k := by omega
  rw [Unfinished.next, if_pos within]
  simp only [value, six]

theorem decodeLossyFrom_first {b : UInt8} {p : Unfinished} (h : first b = .more p) (rest : Bytes) :
    decodeLossyFrom none (b :: rest) = decodeLossyFrom (some p) rest := by
  simp only [decodeLossyFrom, h]

theorem decodeLossyFrom_tail (small : k < 0x40) (low : least.toNat ≤ 0x80 + k)
    (high : 0x80 + k ≤ greatest.toNat) (rest : Bytes) :
    decodeLossyFrom (some ⟨bits, owed + 2, least, greatest⟩) ((0x80 + k).toUInt8 :: rest) =
      decodeLossyFrom (some ⟨bits * 0x40 + k, owed + 1, 0x80, 0xbf⟩) rest := by
  have more : Unfinished.next ⟨bits, owed + 2, least, greatest⟩ (0x80 + k).toUInt8 =
      .more ⟨bits * 0x40 + k, owed + 1, 0x80, 0xbf⟩ :=
    (next_tail small low high).trans (if_neg (by omega))
  simp only [decodeLossyFrom, more]

theorem decodeLossyFrom_last (small : k < 0x40) (low : least.toNat ≤ 0x80 + k)
    (high : 0x80 + k ≤ greatest.toNat) (same : bits * 0x40 + k = c.toNat) (rest : Bytes) :
    decodeLossyFrom (some ⟨bits, 1, least, greatest⟩) ((0x80 + k).toUInt8 :: rest) =
      c :: decodeLossyFrom none rest := by
  have char : Unfinished.next ⟨bits, 1, least, greatest⟩ (0x80 + k).toUInt8 = .char c := by
    rw [next_tail small low high, if_pos (Nat.le_refl 1), same, Char.ofNat_toNat]
  simp only [decodeLossyFrom, char]

end

/-- Whatever follows, the bytes of a character are read as that character. -/
theorem decodeLossyFrom_encodeChar (c : Char) (rest : Bytes) :
    decodeLossyFrom none (encodeChar c ++ rest) = c :: decodeLossyFrom none rest := by
  have range : c.toNat < 0xd800 ∨ 0xdfff < c.toNat ∧ c.toNat < 0x110000 := c.valid
  have six (n : Nat) : n % 0x40 < 0x40 := Nat.mod_lt _ (by decide)
  have low (n : Nat) : (0x80 : UInt8).toNat ≤ 0x80 + n % 0x40 := Nat.le_add_right _ _
  have high (n : Nat) : 0x80 + n % 0x40 ≤ (0xbf : UInt8).toNat := by
    show _ ≤ 0xbf
    have := six n
    omega
  unfold encodeChar
  dsimp only
  split_ifs with one two three
  · have value : c.toNat.toUInt8.toNat = c.toNat := by simp; omega
    have small : c.toNat.toUInt8 < 0x80 := by simpa [UInt8.lt_iff_toNat_lt, value] using one
    simp only [List.cons_append, List.nil_append, decodeLossyFrom, first, if_pos small, value,
      Char.ofNat_toNat]
  · simp only [List.cons_append, List.nil_append]
    rw [decodeLossyFrom_first (first_two (by omega) (by omega)),
      decodeLossyFrom_last (c := c) (six _) (low _) (high _) (by omega)]
  -- the bounds after the first byte leave out what a shorter form or no form has
  · have least : (if c.toNat / 0x1000 = 0 then 0xa0 else 0x80 : UInt8).toNat ≤
        0x80 + c.toNat / 0x40 % 0x40 := by
      split_ifs with zero
      · show 0xa0 ≤ _
        omega
      · exact low _
    have greatest : 0x80 + c.toNat / 0x40 % 0x40 ≤
        (if c.toNat / 0x1000 = 0xd then 0x9f else 0xbf : UInt8).toNat := by
      split_ifs with surrogate
      · show _ ≤ 0x9f
        omega
      · exact high _
    simp only [List.cons_append, List.nil_append]
    rw [decodeLossyFrom_first (first_three (by omega)), decodeLossyFrom_tail (six _) least greatest,
      decodeLossyFrom_last (c := c) (six _) (low _) (high _) (by omega)]
  · have least : (if c.toNat / 0x40000 = 0 then 0x90 else 0x80 : UInt8).toNat ≤
        0x80 + c.toNat / 0x1000 % 0x40 := by
      split_ifs with zero
      · show 0x90 ≤ _
        omega
      · exact low _
    have greatest : 0x80 + c.toNat / 0x1000 % 0x40 ≤
        (if c.toNat / 0x40000 = 4 then 0x8f else 0xbf : UInt8).toNat := by
      split_ifs with top
      · show _ ≤ 0x8f
        omega
      · exact high _
    simp only [List.cons_append, List.nil_append]
    rw [decodeLossyFrom_first (first_four (by omega)), decodeLossyFrom_tail (six _) least greatest,
      decodeLossyFrom_tail (six _) (low _) (high _),
      decodeLossyFrom_last (c := c) (six _) (low _) (high _) (by omega)]

theorem decodeLossy_encode (cs : List Char) : decodeLossy (encode cs) = cs := by
  rw [decodeLossy]
  induction cs with
  | nil => rfl
  | cons c cs ih => rw [encode, List.flatMap_cons, decodeLossyFrom_encodeChar, ← encode, ih]

end Text.Utf8

namespace Uri

/-- What is written of a text needs no cleaning, is read as one run, and holds no mark of a query or a
fragment. -/
def isSafe (c : Char) : Bool := 0x20 < c.toNat && isAscii c && c ≠ '#' && c ≠ '?'

theorem isSafe_encodeByte {b : UInt8} {c : Char} (h : c ∈ encodeByte b) : isSafe c = true := by
  have bytes : ((List.range 0x100).all fun n => (encodeByte n.toUInt8).all isSafe) = true := by
    decide +kernel
  have same : b.toNat.toUInt8 = b := UInt8.toNat_inj.1 (by simp)
  have safe := List.all_eq_true.1 bytes b.toNat (List.mem_range.2 b.toNat_lt)
  rw [same] at safe
  exact List.all_eq_true.1 safe c h

theorem isSafe_written {cs : List Char} {c : Char} (h : c ∈ written cs) : isSafe c = true := by
  obtain ⟨b, -, member⟩ := List.mem_flatMap.1 h
  exact isSafe_encodeByte member

section

variable {cs : List Char} (h : ∀ c ∈ cs, isSafe c = true)

include h

theorem clean_eq_self : clean cs = cs := by
  have visible (c : Char) (hc : c ∈ cs) : 0x20 < c.toNat := by
    have := h c hc
    simp only [isSafe, Bool.and_eq_true, decide_eq_true_eq] at this
    exact this.1.1.1
  have front : cs.dropWhile (fun c => c.toNat ≤ 0x20) = cs := by
    cases cs with
    | nil => rfl
    | cons c cs =>
      have := visible c List.mem_cons_self
      exact List.dropWhile_cons_of_neg (by simpa using this)
  rw [clean, front, List.filter_eq_self]
  intro c hc
  have := visible c hc
  by_contra blank
  simp only [Bool.not_eq_true', Bool.or_eq_false_iff, decide_eq_false_iff_not, not_and_or,
    not_not] at blank
  rcases blank with (rfl | rfl) | rfl <;> exact absurd this (by decide)

theorem takeWhile_marks : (cs.takeWhile (· ≠ '#')).takeWhile (· ≠ '?') = cs := by
  have marks (c : Char) (hc : c ∈ cs) : c ≠ '#' ∧ c ≠ '?' := by
    have := h c hc
    simp only [isSafe, Bool.and_eq_true, decide_eq_true_eq] at this
    exact ⟨this.1.2, this.2⟩
  have fragment : cs.takeWhile (· ≠ '#') = cs :=
    List.takeWhile_eq_self_iff.2 fun c hc => by simpa using (marks c hc).1
  rw [fragment]
  exact List.takeWhile_eq_self_iff.2 fun c hc => by simpa using (marks c hc).2

theorem decodeRuns_eq (run : List Char) :
    decodeRuns run cs = Text.Utf8.decodeLossy (bytesOf (run.reverse ++ cs)) := by
  induction cs generalizing run with
  | nil => rw [decodeRuns, List.append_nil]
  | cons c cs ih =>
    have ascii : isAscii c = true := by
      have := h c List.mem_cons_self
      simp only [isSafe, Bool.and_eq_true] at this
      exact this.1.1.2
    rw [decodeRuns, if_pos ascii, ih fun c hc => h c (List.mem_cons_of_mem _ hc)]
    simp

end

theorem decode_written (cs : List Char) : decode (written cs) = cs := by
  rw [decode, decodeRuns_eq fun c => isSafe_written, List.reverse_nil, List.nil_append, written,
    bytesOf_encode, Text.Utf8.decodeLossy_encode]

variable {p : FilePath}

/-- The path that an address was made of is read back from it. -/
theorem path_ofPath (h : p.slashes ≠ 0) : path (ofPath p) = .ok p.text := by
  obtain ⟨n, slashes⟩ := Nat.exists_eq_succ_of_ne_zero h
  have chars : p.chars = ['/'] ++ (List.replicate n '/' ++ FilePath.join p.segments) := by
    simp [FilePath.chars, slashes, List.replicate_succ]
  have whole : (ofPath p).toList = "file://".toList ++ written p.chars := String.toList_ofList
  have safe : ∀ c ∈ "file://".toList ++ written p.chars, isSafe c = true := by
    intro c hc
    rcases List.mem_append.1 hc with front | behind
    · have start : "file://".toList.all isSafe = true := by decide
      exact List.all_eq_true.1 start c front
    · exact isSafe_written behind
  obtain ⟨rest, shown⟩ : ∃ rest, written p.chars = '/' :: rest := by
    rw [chars, written_append, written_slash]
    exact ⟨_, rfl⟩
  have start : "file://".toList = ['f', 'i', 'l', 'e', ':', '/', '/'] := by decide
  have scheme : splitScheme ("file://".toList ++ '/' :: rest) =
      ("file".toList, ['/', '/'] ++ '/' :: rest) := by
    rw [start]
    rfl
  have authority : afterAuthority (['/', '/'] ++ '/' :: rest) = .ok ('/' :: rest) := rfl
  have marks : ((written p.chars).takeWhile (· ≠ '#')).takeWhile (· ≠ '?') = written p.chars :=
    takeWhile_marks fun c => isSafe_written
  have some_ : p.chars.isEmpty = false := by rw [chars]; rfl
  have cleaned : clean (ofPath p).toList = "file://".toList ++ '/' :: rest := by
    rw [whole, clean_eq_self safe, shown]
  simp only [path, cleaned, scheme, authority, bind, Except.bind]
  rw [← shown, marks, decode_written, some_]
  rfl

/-- Paths have one address exactly when they have one text. -/
theorem ofPath_eq_iff {q : FilePath} (h : p.slashes ≠ 0) (h' : q.slashes ≠ 0) :
    ofPath p = ofPath q ↔ p.text = q.text := by
  constructor
  · intro same
    have paths : path (ofPath p) = path (ofPath q) := by rw [same]
    rw [path_ofPath h, path_ofPath h'] at paths
    exact Except.ok.inj paths
  · intro same
    have chars : p.chars = q.chars := String.ofList_injective same
    have whole (p : FilePath) : ofPath p = String.ofList ("file://".toList ++ written p.chars) := rfl
    rw [whole, whole, chars]

end Uri

namespace FilePath

/-- Parts between separators are the parts of a text that is cut there. -/
theorem splitAt_append {sep : Char} {cs : List Char} (h : sep ∉ cs) (rest : List Char) :
    splitAt sep (cs ++ sep :: rest) = cs :: splitAt sep rest := by
  induction cs with
  | nil => simp [splitAt]
  | cons c cs ih =>
    simp only [List.mem_cons, not_or] at h
    rw [List.cons_append, splitAt, if_neg (Ne.symm h.1), ih h.2]

theorem splitAt_eq_self {sep : Char} {cs : List Char} (h : sep ∉ cs) : splitAt sep cs = [cs] := by
  induction cs with
  | nil => rfl
  | cons c cs ih =>
    simp only [List.mem_cons, not_or] at h
    rw [splitAt, if_neg (Ne.symm h.1), ih h.2]

theorem splitAt_join {segments : List (List Char)} (h : segments ≠ [])
    (whole : ∀ s ∈ segments, '/' ∉ s) : splitAt '/' (join segments) = segments := by
  induction segments with
  | nil => exact absurd rfl h
  | cons s rest ih =>
    have clean := whole s List.mem_cons_self
    cases rest with
    | nil => exact splitAt_eq_self clean
    | cons t rest =>
      rw [join, splitAt_append clean,
        ih (List.cons_ne_nil t rest) fun s hs => whole s (List.mem_cons_of_mem _ hs)]
      simp

theorem splitAt_slashes (n : Nat) (cs : List Char) :
    splitAt '/' (List.replicate n '/' ++ cs) = List.replicate n [] ++ splitAt '/' cs := by
  induction n with
  | zero => rfl
  | succ n ih => rw [List.replicate_succ, List.cons_append, splitAt, if_pos rfl, ih]; rfl

/-- The segments of a rooted path are the parts of its text that are not empty. -/
theorem segments_text {p : FilePath} (h : p.slashes ≠ 0) (parts : ∀ s ∈ p.segments, s ≠ [] ∧ '/' ∉ s) :
    (splitAt '/' p.text.toList).filter (· ≠ []) = p.segments := by
  have chars : p.text.toList = List.replicate p.slashes '/' ++ join p.segments := by
    simp [text, FilePath.chars, h]
  have kept : p.segments.filter (· ≠ []) = p.segments :=
    List.filter_eq_self.2 fun s hs => by simpa using (parts s hs).1
  rw [chars, splitAt_slashes, List.filter_append]
  by_cases empty : p.segments = []
  · simp [empty, join, splitAt]
  · rw [splitAt_join empty fun s hs => (parts s hs).2, kept]
    simp

end FilePath

namespace Root

variable {s : String}

/-- A root of a path has the normal form of the path, and is as deep as that has segments. -/
theorem ofPath_eq (h : FilePath.IsRooted s) (name : String) : ofPath s name =
    .ok ⟨Uri.ofPath (FilePath.ofText s),
      if name.isEmpty then (FilePath.ofText (FilePath.ofText s).text).name else name⟩ := by
  simp only [ofPath, h.ofText_eq, bind, Except.bind, Uri.path_ofPath h.slashes]

theorem depth_of_path {r : Root} {p : FilePath} (h : r.path = .ok p.text) (rooted : p.slashes ≠ 0)
    (parts : ∀ s ∈ p.segments, s ≠ [] ∧ '/' ∉ s) : r.depth = .ok p.segments.length := by
  simp only [depth, h, Except.map, FilePath.segments_text rooted parts]

end Root

open FilePath (IsRooted)

/-- A path from a root of the file system becomes an address, from which its normal form is read back;
so two such paths have one address exactly when they have one normal form. A root that is made of the
path has that normal form as its path, and is as deep as the path has segments. -/
theorem path_address_path {p : String} (h : IsRooted p) :
    ∃ uri, Uri.ofText p = .ok uri ∧ Uri.path uri = .ok (FilePath.ofText p).text ∧
      (∀ q, IsRooted q →
        (Uri.ofText q = .ok uri ↔ (FilePath.ofText q).text = (FilePath.ofText p).text)) ∧
      ∀ name, ∃ r, Root.ofPath p name = .ok r ∧ r.uri = uri ∧
        r.path = .ok (FilePath.ofText p).text ∧
        r.depth = .ok (FilePath.ofText p).segments.length := by
  have back := Uri.path_ofPath h.slashes
  refine ⟨Uri.ofPath (FilePath.ofText p), h.ofText_eq, back, fun q hq => ?_, fun name => ?_⟩
  · rw [hq.ofText_eq, Except.ok.injEq]
    exact Uri.ofPath_eq_iff hq.slashes h.slashes
  · exact ⟨_, Root.ofPath_eq h name, rfl, back,
      Root.depth_of_path back h.slashes fun _ => FilePath.segment_ofText⟩

/-- Two slashes in front, signs that mean something elsewhere, and characters of all lengths. -/
theorem path_address_odd :
    let p := "//a%2f b/./é#?[\x00]//😀"
    let q := "//a%2f b/é#?[\x00]/😀/"
    let shown := "//a%2f b/é#?[\x00]/😀"
    IsRooted p ∧ IsRooted q ∧ ∃ uri, Uri.ofText p = .ok uri ∧ Uri.ofText q = .ok uri ∧
      Uri.path uri = .ok shown ∧
      ∃ r, Root.ofPath p "" = .ok r ∧ r.uri = uri ∧ r.path = .ok shown ∧ r.depth = .ok 3 := by
  intro p q shown
  have rooted : IsRooted p := by decide +kernel
  have rooted' : IsRooted q := by decide +kernel
  have text : (FilePath.ofText p).text = shown := by decide +kernel
  have text' : (FilePath.ofText q).text = shown := by decide +kernel
  have three : (FilePath.ofText p).segments.length = 3 := by decide +kernel
  obtain ⟨uri, made, back, same, roots⟩ := path_address_path rooted
  obtain ⟨r, built, own, path, depth⟩ := roots ""
  rw [text] at back path
  rw [three] at depth
  exact ⟨rooted, rooted', uri, made, (same q rooted').2 (text'.trans text.symm), back, r, built, own,
    path, depth⟩

end LanguageClient
