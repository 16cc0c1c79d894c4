import LanguageClient.Root
import Mathlib.Data.List.DropRight
import Mathlib.Data.List.Infix

/-!
The address of an absolute path shows the segments of the path: one folder's address is the start of
another's exactly when its segments are the first segments of the other.
-/

namespace LanguageClient

namespace Text.Utf8

/-- The bytes are those of the standard library, which are read back. -/
theorem encodeChar_eq (c : Char) : encodeChar c = String.utf8EncodeChar c := by
  have bound : c.toNat < 0x110000 := by
    rcases c.valid with h | h <;> simp only [← Char.toNat_val] <;> omega
  have le (n : Nat) : (c.toNat < n + 1) = (c.toNat ≤ n) := propext Nat.lt_succ_iff
  unfold encodeChar String.utf8EncodeChar
  simp only [Char.toNat_val, le 0x7f, le 0x7ff, le 0xffff]
  split_ifs with one two three
  · rfl
  · rw [Nat.mod_eq_of_lt (by omega : c.toNat / 64 < 0x20), Nat.add_comm, Nat.add_comm 0x80]
  · rw [Nat.mod_eq_of_lt (by omega : c.toNat / 4096 < 0x10)]
    simp only [Nat.add_comm]
  · rw [Nat.mod_eq_of_lt (by omega : c.toNat / 262144 < 0x08)]
    simp only [Nat.add_comm]

theorem encode_injective : Function.Injective encode := by
  intro cs ds h
  have bytes : cs.utf8Encode = ds.utf8Encode := by
    simp only [encode, funext encodeChar_eq] at h
    rw [List.utf8Encode, List.utf8Encode, h]
  rw [← String.toByteArray_ofList, ← String.toByteArray_ofList, String.toByteArray_inj] at bytes
  exact String.ofList_injective bytes

theorem slash_of_mem_encodeChar {c : Char} (h : 0x2f ∈ encodeChar c) : c = '/' := by
  have bound : c.toNat < 0x110000 := by
    rcases c.valid with h | h <;> simp only [← Char.toNat_val] <;> omega
  have byte {n : Nat} (same : (0x2f : UInt8) = n.toUInt8) : n % 256 = 0x2f := by
    simpa using (congrArg UInt8.toNat same).symm
  unfold encodeChar at h
  dsimp only at h
  split at h
  · rename_i small
    have := byte (List.mem_singleton.1 h)
    exact Char.toNat_inj.1 (by simp; omega)
  -- Every byte of a longer character is above the ASCII range.
  · split at h
    · simp only [List.mem_cons, List.not_mem_nil, or_false] at h
      rcases h with h | h <;> have := byte h <;> omega
    · split at h
      · simp only [List.mem_cons, List.not_mem_nil, or_false] at h
        rcases h with h | h | h <;> have := byte h <;> omega
      · simp only [List.mem_cons, List.not_mem_nil, or_false] at h
        rcases h with h | h | h | h <;> have := byte h <;> omega

end Text.Utf8

namespace Uri

theorem encode_injective : Function.Injective encode :=
  Function.LeftInverse.injective bytesOf_encode

theorem slash_of_mem_encodeByte {b : UInt8} (h : '/' ∈ encodeByte b) : b = 0x2f := by
  have digit {n : Nat} (hn : n < 16) : '/' ≠ hexDigit n :=
    (by decide : ∀ n : Fin 16, '/' ≠ hexDigit n.val) ⟨n, hn⟩
  have high : b.toNat / 16 < 16 := by have := b.toNat_lt; omega
  unfold encodeByte at h
  split at h
  · have same := congrArg Char.toNat (List.mem_singleton.1 h)
    rw [toNat_ofNat_byte] at same
    exact UInt8.toNat_inj.1 same.symm
  · simp only [List.mem_cons, List.not_mem_nil, or_false] at h
    rcases h with h | h | h
    · exact absurd h (by decide)
    · exact absurd h (digit high)
    · exact absurd h (digit (Nat.mod_lt _ (by decide)))

theorem occurs_iff {part cs : List Char} : occurs part cs = true ↔ part <:+: cs := by
  induction cs with
  | nil => simp [occurs]
  | cons c cs ih =>
    rw [occurs, Bool.or_eq_true, ih, List.isPrefixOf_iff_prefix, List.infix_cons_iff]

/-- A text as it is written in an address. -/
def written (cs : List Char) : List Char := encode (Text.Utf8.encode cs)

theorem written_append (cs ds : List Char) : written (cs ++ ds) = written cs ++ written ds := by
  rw [written, Text.Utf8.encode_append, encode_append]
  rfl

theorem written_slash : written ['/'] = ['/'] := by decide

theorem written_injective : Function.Injective written :=
  encode_injective.comp Text.Utf8.encode_injective

theorem slash_not_mem_written {cs : List Char} (h : '/' ∉ cs) : '/' ∉ written cs := by
  intro member
  obtain ⟨b, hb, slash⟩ := List.mem_flatMap.1 member
  obtain ⟨c, hc, byte⟩ := List.mem_flatMap.1 (slash_of_mem_encodeByte slash ▸ hb)
  exact h (Text.Utf8.slash_of_mem_encodeChar byte ▸ hc)

theorem written_ne_nil {cs : List Char} (h : cs ≠ []) : written cs ≠ [] :=
  fun empty => h (written_injective (empty.trans (by rfl : [] = written [])))

/-- Segments as they are written below a folder, a slash after each. -/
def trail (segments : List (List Char)) : List Char :=
  segments.flatMap fun s => written s ++ ['/']

/-- A text up to its first slash shows in everything that starts with it. -/
theorem prefix_of_slash {a b x y : List Char} (ha : '/' ∉ a) (hb : '/' ∉ b) :
    a ++ '/' :: x <+: b ++ '/' :: y ↔ a = b ∧ x <+: y := by
  induction a generalizing b with
  | nil =>
    cases b with
    | nil => simp
    | cons c b =>
      have : '/' ≠ c := fun same => hb (same ▸ List.mem_cons_self)
      simp [this]
  | cons c a ih =>
    cases b with
    | nil =>
      have : c ≠ '/' := fun same => ha (same ▸ List.mem_cons_self)
      simp [this]
    | cons d b =>
      simp only [List.mem_cons, not_or] at ha hb
      simp only [List.cons_append, List.cons_prefix_cons, ih ha.2 hb.2, List.cons.injEq, and_assoc]

/-- One folder's trail is the start of another's exactly when its segments are. -/
theorem trail_prefix_iff {segments others : List (List Char)} (h : ∀ s ∈ segments, '/' ∉ s)
    (h' : ∀ s ∈ others, '/' ∉ s) : trail segments <+: trail others ↔ segments <+: others := by
  induction segments generalizing others with
  | nil => simp [trail]
  | cons s segments ih =>
    cases others with
    | nil => simp [trail]
    | cons t others =>
      simp only [List.mem_cons, forall_eq_or_imp] at h h'
      have cut (s : List Char) (rest : List (List Char)) :
          trail (s :: rest) = written s ++ '/' :: trail rest := by simp [trail]
      rw [cut, cut, prefix_of_slash (slash_not_mem_written h.1) (slash_not_mem_written h'.1),
        ih h.2 h'.2, written_injective.eq_iff, List.cons_prefix_cons]

end Uri

namespace FilePath

theorem not_mem_of_mem_splitAt {sep : Char} {cs part : List Char} (h : part ∈ splitAt sep cs) :
    sep ∉ part := by
  induction cs generalizing part with
  | nil => simp_all [splitAt]
  | cons c cs ih =>
    simp only [splitAt] at h
    split at h
    · rcases List.mem_cons.1 h with rfl | h
      · simp
      · exact ih h
    · rename_i apart
      split at h
      · exact List.mem_singleton.1 h ▸ by simpa using Ne.symm apart
      · rename_i first parts same
        rcases List.mem_cons.1 h with rfl | h
        · simp only [List.mem_cons, not_or]
          exact ⟨Ne.symm apart, ih (same ▸ List.mem_cons_self)⟩
        · exact ih (same ▸ List.mem_cons_of_mem _ h)

theorem segment_ofText {s : String} {segment : List Char} (h : segment ∈ (ofText s).segments) :
    segment ≠ [] ∧ '/' ∉ segment := by
  obtain ⟨part, kept⟩ := List.mem_filter.1 h
  simp only [isKept, Bool.and_eq_true, decide_eq_true_eq] at kept
  exact ⟨kept.1, not_mem_of_mem_splitAt part⟩

/-- Below the root of the file system, in segments that are not empty. -/
structure IsPlain (p : FilePath) : Prop where
  slashes : p.slashes = 1
  segments : ∀ s ∈ p.segments, s ≠ [] ∧ '/' ∉ s

theorem rootSlashes_of_slash {cs : List Char} (h : cs.head? = some '/') :
    rootSlashes cs = 1 ∨ rootSlashes cs = 2 := by
  obtain ⟨rest, rfl⟩ := List.head?_eq_some_iff.1 h
  unfold rootSlashes
  rw [List.takeWhile_cons_of_pos (by decide), List.length_cons]
  split <;> simp_all

/-- A text that is a path from a root of the file system: at least one slash in front, and no sign of an
address in it. -/
structure IsRooted (s : String) : Prop where
  slash : s.toList.head? = some '/'
  plain : ¬ "://".toList <:+: s.toList

instance (s : String) : Decidable (IsRooted s) :=
  decidable_of_iff (s.toList.head? = some '/' ∧ ¬ "://".toList <:+: s.toList)
    ⟨fun h => ⟨h.1, h.2⟩, fun h => ⟨h.slash, h.plain⟩⟩

namespace IsRooted

variable {s : String}

theorem slashes (h : IsRooted s) : (ofText s).slashes ≠ 0 := by
  have some_ : rootSlashes s.toList ≠ 0 := by
    rcases rootSlashes_of_slash h.slash with one | two <;> omega
  exact some_

theorem not_isAddress (h : IsRooted s) : Uri.isAddress s = false := by
  have first : "untitled:".toList.isPrefixOf s.toList = false := by
    obtain ⟨rest, chars⟩ := List.head?_eq_some_iff.1 h.slash
    rw [chars]
    rfl
  rw [Uri.isAddress, first, Bool.or_false]
  exact Bool.eq_false_iff.2 fun found => h.plain (Uri.occurs_iff.1 found)

/-- The address of a path from a root is that of its normal form. -/
theorem ofText_eq (h : IsRooted s) : Uri.ofText s = .ok (Uri.ofPath (ofText s)) := by
  have home : (ofText s).expandHome = .ok (ofText s) := by
    unfold expandHome
    split
    · rename_i none _
      exact absurd none h.slashes
    · rfl
  have absolute : (ofText s).absolute = ofText s := by
    rw [FilePath.absolute, if_pos (by simpa [isAbsolute] using h.slashes)]
  rw [Uri.ofText, h.not_isAddress, if_neg Bool.false_ne_true, home]
  exact congrArg (fun p => Except.ok (Uri.ofPath p)) absolute

end IsRooted

/-- A text that is a path from the root of the file system: one slash in front, and no sign of an
address in it. -/
structure IsAbsolutePath (s : String) : Prop where
  slash : (s.toList.takeWhile (· = '/')).length = 1
  plain : ¬ "://".toList <:+: s.toList

instance (s : String) : Decidable (IsAbsolutePath s) :=
  decidable_of_iff
    ((s.toList.takeWhile (· = '/')).length = 1 ∧ ¬ "://".toList <:+: s.toList)
    ⟨fun h => ⟨h.1, h.2⟩, fun h => ⟨h.slash, h.plain⟩⟩

namespace IsAbsolutePath

variable {s : String}

theorem isPlain (h : IsAbsolutePath s) : (ofText s).IsPlain where
  slashes := by
    show rootSlashes s.toList = 1
    simp only [rootSlashes, h.slash]
  segments _ := segment_ofText

theorem isRooted (h : IsAbsolutePath s) : IsRooted s where
  slash := by
    have slash := h.slash
    cases chars : s.toList with
    | nil => simp [chars] at slash
    | cons c cs =>
      by_contra other
      simp [chars, show c ≠ '/' by simpa using other] at slash
  plain := h.plain

/-- The address of an absolute path is that of its normal form. -/
theorem ofText_eq (h : IsAbsolutePath s) : Uri.ofText s = .ok (Uri.ofPath (ofText s)) :=
  h.isRooted.ofText_eq

end IsAbsolutePath

end FilePath

namespace Uri

open FilePath (IsAbsolutePath)

theorem written_join {segments : List (List Char)} (h : segments ≠ []) :
    written (FilePath.join segments) ++ ['/'] = trail segments := by
  induction segments with
  | nil => exact absurd rfl h
  | cons s rest ih =>
    cases rest with
    | nil => simp [FilePath.join, trail]
    | cons t rest =>
      have cut : FilePath.join (s :: t :: rest) = s ++ (['/'] ++ FilePath.join (t :: rest)) := rfl
      rw [cut, written_append, written_append, written_slash, List.append_assoc, List.append_assoc,
        ih (List.cons_ne_nil t rest)]
      simp [trail]

/-- What is written of a path does not end with a slash, unless the path is the root directory. -/
theorem getLast?_written_join {segments : List (List Char)} (h : segments ≠ [])
    (parts : ∀ s ∈ segments, s ≠ [] ∧ '/' ∉ s) (front : List Char) :
    (front ++ written (FilePath.join segments)).getLast? ≠ some '/' := by
  induction segments generalizing front with
  | nil => exact absurd rfl h
  | cons s rest ih =>
    obtain ⟨some_, clean⟩ := parts s List.mem_cons_self
    cases rest with
    | nil =>
      intro last
      rw [FilePath.join, List.getLast?_append_of_ne_nil _ (written_ne_nil some_)] at last
      exact slash_not_mem_written clean (List.mem_of_getLast? last)
    | cons t rest =>
      have cut : FilePath.join (s :: t :: rest) = (s ++ ['/']) ++ FilePath.join (t :: rest) := by
        simp [FilePath.join]
      rw [cut, written_append, ← List.append_assoc]
      exact ih (List.cons_ne_nil t rest) (fun s hs => parts s (List.mem_cons_of_mem _ hs)) _

section

variable {p q : FilePath}

theorem toList_ofPath (h : p.IsPlain) :
    (ofPath p).toList = "file:///".toList ++ written (FilePath.join p.segments) := by
  have chars : p.chars = ['/'] ++ FilePath.join p.segments := by simp [FilePath.chars, h.slashes]
  have start : "file:///".toList = "file://".toList ++ ['/'] := by decide
  have whole : (ofPath p).toList = "file://".toList ++ written p.chars := String.toList_ofList
  rw [whole, chars, written_append, written_slash, start, List.append_assoc]

theorem ofPath_root (h : p.IsPlain) (empty : p.segments = []) : ofPath p = "file:///" := by
  rw [← String.toList_inj, toList_ofPath h, empty]
  decide

theorem getLast?_ofPath (h : p.IsPlain) (below : p.segments ≠ []) :
    (ofPath p).toList.getLast? ≠ some '/' := by
  rw [toList_ofPath h]
  exact getLast?_written_join below h.segments _

/-- The folder of an absolute path ends with its segments, a slash after each. -/
theorem toList_folder_ofPath (h : p.IsPlain) :
    (folder (ofPath p)).toList = "file:///".toList ++ trail p.segments := by
  by_cases empty : p.segments = []
  · rw [ofPath_root h empty, empty]
    decide
  · rw [folder, if_neg (getLast?_ofPath h empty), String.toList_append, toList_ofPath h,
      List.append_assoc, ← written_join empty]
    rfl

theorem folder_prefix_iff (h : p.IsPlain) (h' : q.IsPlain) :
    (folder (ofPath p)).toList <+: (folder (ofPath q)).toList ↔ p.segments <+: q.segments := by
  rw [toList_folder_ofPath h, toList_folder_ofPath h', List.prefix_append_right_inj]
  exact trail_prefix_iff (fun s hs => (h.segments s hs).2) fun s hs => (h'.segments s hs).2

theorem ofPath_inj (h : p.IsPlain) (h' : q.IsPlain) :
    ofPath p = ofPath q ↔ p.segments = q.segments := by
  constructor
  · intro same
    have there := (folder_prefix_iff h h').1 (same ▸ List.prefix_rfl)
    have back := (folder_prefix_iff h' h).1 (same ▸ List.prefix_rfl)
    exact there.eq_of_length_le back.length_le
  · intro same
    rw [← String.toList_inj, toList_ofPath h, toList_ofPath h', same]

end

end Uri

namespace Root

variable {p q : FilePath}

theorem key_ofPath (h : p.IsPlain) (name : String) :
    key ⟨Uri.ofPath p, name⟩ = if p.segments = [] then "file:" else Uri.ofPath p := by
  split_ifs with empty
  · rw [Uri.ofPath_root h empty]
    simp only [key]
    decide
  · have whole : Text.dropEndWhile (· = '/') (Uri.ofPath p).toList = (Uri.ofPath p).toList := by
      refine List.rdropWhile_eq_self_iff.2 fun some_ last => Uri.getLast?_ofPath h empty ?_
      rw [List.getLast?_eq_getLast_of_ne_nil some_]
      simpa using last
    have some_ : (Uri.ofPath p).toList.isEmpty = false := by rw [Uri.toList_ofPath h]; rfl
    simp only [key, whole, some_, Bool.false_eq_true, if_false, String.ofList_toList]

/-- Roots of absolute paths have one key exactly when their paths have the same segments. -/
theorem key_ofPath_inj (h : p.IsPlain) (h' : q.IsPlain) (name name' : String) :
    key ⟨Uri.ofPath p, name⟩ = key ⟨Uri.ofPath q, name'⟩ ↔ p.segments = q.segments := by
  have longer {r : FilePath} (hr : r.IsPlain) : "file:" ≠ Uri.ofPath r := by
    intro same
    have := congrArg (fun s : String => s.toList.length) same
    simp only [Uri.toList_ofPath hr, List.length_append] at this
    exact absurd this (Nat.ne_of_lt (Nat.lt_of_lt_of_le (by decide) (Nat.le_add_right _ _)))
  rw [key_ofPath h, key_ofPath h']
  split_ifs with root root' root'
  · simp [root, root']
  · exact iff_of_false (longer h') fun same => root' (same ▸ root)
  · exact iff_of_false (longer h).symm fun same => root (same ▸ root')
  · exact Uri.ofPath_inj h h'

end Root

end LanguageClient
