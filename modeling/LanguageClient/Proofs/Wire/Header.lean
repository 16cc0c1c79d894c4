import LanguageClient.Proofs.Wire.Ascii
import LanguageClient.Proofs.Wire.Lines
import LanguageClient.Wire.Frame

/-!
What the lines of a header block add up to, and the header of a frame among them: it names the
length it was written for.
-/

namespace LanguageClient

namespace Text

theorem dropWhile_of_head {p : Char → Bool} {cs : List Char} (h : ∀ c ∈ cs.head?, p c = false) :
    cs.dropWhile p = cs := by
  cases cs with
  | nil => rfl
  | cons c cs => rw [List.dropWhile_cons_of_neg (by simp [h c rfl])]

theorem dropEndWhile_append {p : Char → Bool} {cs tail : List Char} (ht : ∀ c ∈ tail, p c = true)
    (h : ∀ c ∈ cs.getLast?, p c = false) : dropEndWhile p (cs ++ tail) = cs := by
  have last : ∀ c ∈ cs.reverse.head?, p c = false := by rwa [List.head?_reverse]
  have dropped : ∀ c ∈ tail.reverse, p c = true := fun c hc => ht c (List.mem_reverse.1 hc)
  rw [dropEndWhile, List.reverse_append, List.dropWhile_append_of_pos dropped,
    dropWhile_of_head last, List.reverse_reverse]

theorem trimChars_cons_blank {c : Char} (h : isBlank c = true) (cs : List Char) :
    trimChars (c :: cs) = trimChars cs := by
  rw [trimChars, List.dropWhile_cons_of_pos h, trimChars]

theorem trimChars_append {cs tail : List Char} (hne : cs ≠ [])
    (first : ∀ c ∈ cs.head?, isBlank c = false) (last : ∀ c ∈ cs.getLast?, isBlank c = false)
    (ht : ∀ c ∈ tail, isBlank c = true) : trimChars (cs ++ tail) = cs := by
  have start : ∀ c ∈ (cs ++ tail).head?, isBlank c = false := by
    cases cs with
    | nil => exact absurd rfl hne
    | cons c cs => exact first
  rw [trimChars, dropWhile_of_head start, dropEndWhile_append ht last]

theorem trimChars_eq_self {cs : List Char} (hne : cs ≠ [])
    (first : ∀ c ∈ cs.head?, isBlank c = false) (last : ∀ c ∈ cs.getLast?, isBlank c = false) :
    trimChars cs = cs := by
  have trimmed : trimChars (cs ++ []) = cs :=
    trimChars_append hne first last fun c hc => absurd hc List.not_mem_nil
  rwa [List.append_nil] at trimmed

end Text

namespace Number

theorem digitValue?_isDigit {c : Char} (h : Json.isDigit c = true) :
    Text.digitValue? c = some (c.toNat - 0x30) := by
  simp only [Json.isDigit, Bool.and_eq_true, decide_eq_true_eq] at h
  have lower : 0x30 ≤ c.toNat := h.1
  have upper : c.toNat ≤ 0x39 := h.2
  have inside : (0x30 ≤ c.toNat && c.toNat < 0x30 + 10) = true := by
    simp only [Bool.and_eq_true, decide_eq_true_eq]
    omega
  simp only [Text.digitValue?, Text.digitZeros, List.find?_cons, inside, Option.map_some]

theorem digits_isDigit {cs : List Char} (h : ∀ c ∈ cs, Json.isDigit c = true) :
    digits cs = (cs.map fun c => c.toNat - 0x30, []) := by
  induction cs with
  | nil => rfl
  | cons c cs ih =>
    obtain ⟨here, later⟩ := List.forall_mem_cons.1 h
    simp [digits, digitValue?_isDigit here, ih later]

theorem underscoresFit_isDigit {cs : List Char} (h : ∀ c ∈ cs, Json.isDigit c = true)
    (before : Bool) : underscoresFit before cs = true := by
  induction cs generalizing before with
  | nil => rfl
  | cons c cs ih =>
    obtain ⟨here, later⟩ := List.forall_mem_cons.1 h
    unfold underscoresFit
    split
    · rfl
    · next same =>
      obtain ⟨rfl, -⟩ := List.cons.inj same
      cases here
    · next same =>
      obtain ⟨-, rfl⟩ := List.cons.inj same
      exact ih later _

theorem not_isBlank_of_isDigit {c : Char} (h : Json.isDigit c = true) : Text.isBlank c = false := by
  simp only [Json.isDigit, Bool.and_eq_true, decide_eq_true_eq] at h
  have lower : 0x30 ≤ c.toNat := h.1
  have upper : c.toNat ≤ 0x39 := h.2
  simp [Text.isBlank]
  omega

theorem strip_isDigit {cs : List Char} (h : ∀ c ∈ cs, Json.isDigit c = true) : strip cs = cs := by
  have plain {c : Char} (hc : c ∈ cs) : isBlank c = false := by
    rw [isBlank, not_isBlank_of_isDigit (h c hc), Bool.false_and]
  have first : ∀ c ∈ cs.head?, isBlank c = false := fun c hc => plain (List.mem_of_mem_head? hc)
  have last : ∀ c ∈ cs.getLast?, isBlank c = false :=
    fun c hc => plain (List.mem_of_mem_getLast? hc)
  have cut : Text.dropEndWhile isBlank (cs ++ []) = cs :=
    Text.dropEndWhile_append (fun c hc => absurd hc List.not_mem_nil) last
  rw [List.append_nil] at cut
  rw [strip, Text.dropWhile_of_head first, cut]

theorem sign_isDigit {cs : List Char} (h : ∀ c ∈ cs, Json.isDigit c = true) :
    sign cs = (false, cs) := by
  unfold sign
  split
  · exact absurd (h '-' List.mem_cons_self) (by decide)
  · exact absurd (h '+' List.mem_cons_self) (by decide)
  · rfl

theorem ofDigits_toDigits (n : Nat) :
    ofDigits ((Nat.toDigits 10 n).map fun c => c.toNat - 0x30) = n := by
  rw [ofDigits, List.foldl_map]
  exact Nat.ofDigitChars_ten_toDigits

theorem readIntChars?_toDigits (n : Nat) : readIntChars? (Nat.toDigits 10 n) = some (n : Int) := by
  have each : ∀ c ∈ Nat.toDigits 10 n, Json.isDigit c = true :=
    fun c => Json.isDigit_of_mem_toDigits
  have nothing : (Nat.toDigits 10 n).filter (· ≠ '_') = Nat.toDigits 10 n := by
    rw [List.filter_eq_self]
    rintro c hc
    have : c ≠ '_' := by
      rintro rfl
      exact absurd (each '_' hc) (by decide)
    exact decide_eq_true this
  simp only [readIntChars?, strip_isDigit each, withoutUnderscores?, underscoresFit_isDigit each,
    if_true, nothing, Option.bind_eq_bind, Option.bind_some, sign_isDigit each,
    digits_isDigit each, ofDigits_toDigits]
  simp [Nat.toDigits_ne_nil]

end Number

namespace Wire

open Text (Bytes Ascii)

/-- A line with nothing on it but blanks. -/
def IsBlank (line : Bytes) : Prop := Text.trimChars (Text.asciiLossy line) = []

instance (line : Bytes) : Decidable (IsBlank line) :=
  inferInstanceAs (Decidable (_ = []))

/-- The headers after a line of their block. -/
def noteLine (headers : Entries) (line : Bytes) : Entries :=
  let text := Text.trimChars (Text.asciiLossy line)
  if text.contains ':' then putHeader text headers else headers

theorem afterLine_line (headers : Entries) (size : Nat) {line : Bytes} (hb : ¬ IsBlank line)
    (fits : size + line.length ≤ headerLimit) :
    afterLine headers size line = .on (.header (noteLine headers line) (size + line.length) none) := by
  have filled : (Text.trimChars (Text.asciiLossy line)).isEmpty = false := by
    rw [List.isEmpty_eq_false_iff]
    exact hb
  simp only [afterLine, if_neg (Nat.not_lt.2 fits), filled, Bool.false_eq_true, if_false, noteLine]
  split <;> rfl

theorem afterLine_blank {headers : Entries} {size : Nat} {line : Bytes} (hb : IsBlank line)
    (fits : size + line.length ≤ headerLimit) (hne : headers ≠ []) :
    afterLine headers size line = match contentLength? headers with
      | some n => .on (.body n)
      | none => .on (.skipping (.noLength headers)) := by
  have empty : (Text.trimChars (Text.asciiLossy line)).isEmpty = true := List.isEmpty_iff.2 hb
  have started : headers.isEmpty = false := List.isEmpty_eq_false_iff.2 hne
  cases known : contentLength? headers <;>
    simp [afterLine, Nat.not_lt.2 fits, empty, started, known]

theorem put_ne_nil (k : Key) (v : Value) (entries : Entries) : Entries.put k v entries ≠ [] := by
  unfold Entries.put
  split
  · exact List.cons_ne_nil _ _
  · split <;> exact List.cons_ne_nil _ _

theorem noteLine_ne_nil {headers : Entries} {line : Bytes}
    (h : headers ≠ [] ∨ noteLine [] line ≠ []) : noteLine headers line ≠ [] := by
  unfold noteLine at h ⊢
  dsimp only at h ⊢
  split
  · exact put_ne_nil _ _ _
  · next plain =>
    rw [if_neg plain] at h
    rcases h with h | h
    · exact h
    · exact absurd rfl h

/-- An entry that names no usable length by itself names none among others. -/
theorem contentLength?_put {k : Key} {v : Value} {headers : Entries}
    (before : contentLength? headers = none) (alone : contentLength? (Entries.put k v []) = none) :
    contentLength? (Entries.put k v headers) = none := by
  have among := Entries.lookup?_put k (.text lengthHeader) v headers
  have single := Entries.lookup?_put k (.text lengthHeader) v []
  by_cases same : k.same (.text lengthHeader)
  · rw [if_pos same] at among single
    rw [contentLength?, Entries.field?, single] at alone
    rw [contentLength?, Entries.field?, among]
    exact alone
  · rw [if_neg same] at among
    rw [contentLength?, Entries.field?, among]
    exact before

theorem contentLength?_noteLine {headers : Entries} {line : Bytes}
    (before : contentLength? headers = none) (alone : contentLength? (noteLine [] line) = none) :
    contentLength? (noteLine headers line) = none := by
  unfold noteLine at alone ⊢
  dsimp only at alone ⊢
  split
  · next colon =>
    rw [if_pos colon] at alone
    exact contentLength?_put before alone
  · exact before

def crlf : Bytes := Text.bytesOf ['\r', '\n']

/-- The line that names a length. -/
def lengthLine (n : Nat) : Bytes :=
  Text.bytesOf ("Content-Length: ".toList ++ Nat.toDigits 10 n ++ ['\r', '\n'])

theorem bytesOf_header (n : Nat) : Text.bytesOf (header n) = lengthLine n ++ crlf := by
  rw [lengthLine, crlf, ← Text.bytesOf_append, List.append_assoc _ ['\r', '\n']]
  rfl

/-- What follows the marker on the line that names a length. -/
def lengthTail (n : Nat) : Bytes := Text.bytesOf (' ' :: (Nat.toDigits 10 n ++ ['\r', '\n']))

theorem lengthLine_eq (n : Nat) : lengthLine n = Stream.marker ++ lengthTail n := by
  have name : "Content-Length: ".toList = "Content-Length:".toList ++ [' '] := by decide
  rw [lengthLine, name, List.append_assoc, List.append_assoc, Text.bytesOf_append]
  rfl

theorem isLine_crlf : Stream.IsLine crlf := ⟨[13], by decide, rfl⟩

theorem isBlank_crlf : IsBlank crlf := by decide

theorem newline_notMem_bytesOf {cs : List Char} (h : Ascii cs) (plain : '\n' ∉ cs) :
    Stream.newline ∉ Text.bytesOf cs := by
  intro inside
  obtain ⟨c, hc, same⟩ := List.mem_map.1 inside
  have value := congrArg (fun b => Char.ofNat b.toNat) same
  simp only [Text.ofNat_byte (h c hc)] at value
  exact plain (value ▸ hc)

theorem isLine_lengthTail (n : Nat) : Stream.IsLine (lengthTail n) := by
  refine ⟨Text.bytesOf (' ' :: (Nat.toDigits 10 n ++ ['\r'])), newline_notMem_bytesOf ?_ ?_, ?_⟩
  · exact Text.ascii_cons.2 ⟨by decide, Text.ascii_append.2 ⟨Text.ascii_digits n, by decide⟩⟩
  · simp only [List.mem_cons, List.mem_append, List.not_mem_nil, or_false]
    rintro (same | digit | same)
    · cases same
    · exact absurd (Json.isDigit_of_mem_toDigits digit) (by decide)
    · cases same
  · simp [lengthTail, Text.bytesOf, Stream.newline]

theorem isLine_lengthLine (n : Nat) : Stream.IsLine (lengthLine n) := by
  rw [lengthLine_eq]
  exact (Stream.isLine_append (isLine_lengthTail n).ne_nil).2
    ⟨Stream.newline_notMem_marker, isLine_lengthTail n⟩

theorem trimChars_lengthLine (n : Nat) :
    Text.trimChars (Text.asciiLossy (lengthLine n)) =
      "Content-Length: ".toList ++ Nat.toDigits 10 n := by
  have ascii : Ascii ("Content-Length: ".toList ++ Nat.toDigits 10 n ++ ['\r', '\n']) :=
    Text.ascii_append.2 ⟨Text.ascii_append.2 ⟨by decide +kernel, Text.ascii_digits n⟩, by decide⟩
  have lineEnd : ∀ c ∈ ['\r', '\n'], Text.isBlank c = true :=
    List.forall_mem_cons.2 ⟨rfl, List.forall_mem_singleton.2 rfl⟩
  rw [lengthLine, Text.asciiLossy_bytesOf ascii]
  refine Text.trimChars_append (by simp) ?_ ?_ lineEnd
  · intro c hc
    have same : c = 'C' := by simpa using hc.symm
    rw [same]
    decide
  · intro c hc
    have last := List.getLast?_eq_some_getLast (Nat.toDigits_ne_nil (b := 10) (n := n))
    rw [List.getLast?_append, last, Option.some_or] at hc
    have digit := Json.isDigit_of_mem_toDigits (List.mem_of_mem_getLast? (last.trans hc))
    exact Number.not_isBlank_of_isDigit digit

theorem not_isBlank_lengthLine (n : Nat) : ¬ IsBlank (lengthLine n) := by
  rw [IsBlank, trimChars_lengthLine]
  simp

theorem trimChars_digits (n : Nat) :
    Text.trimChars (' ' :: Nat.toDigits 10 n) = Nat.toDigits 10 n := by
  have plain {c : Char} (hc : c ∈ Nat.toDigits 10 n) : Text.isBlank c = false :=
    Number.not_isBlank_of_isDigit (Json.isDigit_of_mem_toDigits hc)
  rw [Text.trimChars_cons_blank (by decide), Text.trimChars_eq_self Nat.toDigits_ne_nil
    (fun c hc => plain (List.mem_of_mem_head? hc)) (fun c hc => plain (List.mem_of_mem_getLast? hc))]

theorem noteLine_lengthLine (headers : Entries) (n : Nat) :
    noteLine headers (lengthLine n) =
      Entries.put (.text lengthHeader) (.text (String.ofList (Nat.toDigits 10 n))) headers := by
  have text : "Content-Length: ".toList ++ Nat.toDigits 10 n =
      "Content-Length".toList ++ ':' :: ' ' :: Nat.toDigits 10 n := rfl
  have name : ("Content-Length".toList ++ ':' :: ' ' :: Nat.toDigits 10 n).takeWhile (· ≠ ':') =
      "Content-Length".toList := rfl
  have lowered : (Text.trimChars "Content-Length".toList).map Char.toLower = lengthHeader.toList := by
    decide
  have value : ("Content-Length".toList ++ ':' :: ' ' :: Nat.toDigits 10 n).drop
      ("Content-Length".toList.length + 1) = ' ' :: Nat.toDigits 10 n := rfl
  have colon : ("Content-Length".toList ++ ':' :: ' ' :: Nat.toDigits 10 n).contains ':' = true := by
    simp
  rw [noteLine, trimChars_lengthLine, text]
  simp only [colon, if_true, putHeader, name, lowered, value, trimChars_digits]
  rw [String.ofList_toList]

theorem contentLength?_lengthLine {n : Nat} (h : 0 < n) (headers : Entries) :
    contentLength? (noteLine headers (lengthLine n)) = some n := by
  have read : Number.readInt? (String.ofList (Nat.toDigits 10 n)) = some (n : Int) := by
    rw [Number.readInt?, String.toList_ofList, Number.readIntChars?_toDigits]
  have named := Entries.lookup?_put (.text lengthHeader) (.text lengthHeader)
    (.text (String.ofList (Nat.toDigits 10 n))) headers
  rw [Key.same_refl, if_pos rfl] at named
  rw [noteLine_lengthLine, contentLength?, Entries.field?, named]
  simp [read, h]

end Wire
end LanguageClient
