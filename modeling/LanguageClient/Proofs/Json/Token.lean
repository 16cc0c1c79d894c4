import LanguageClient.Json.Printer
import LanguageClient.Json.Reader

/-!
Strings and whole numbers are read back from what they are written as, whatever follows them. What
follows a number must not go on with it.
-/

namespace LanguageClient.Json

theorem hexValue?_digitChar {d : Nat} (h : d < 16) : hexValue? d.digitChar = some d :=
  (by decide : ∀ d : Fin 16, hexValue? d.val.digitChar = some d.val) ⟨d, h⟩

theorem hexPadded_four {n : Nat} (h : n < 0x10000) :
    Text.hexPadded 4 n = [(n / 0x1000).digitChar, (n / 0x100 % 0x10).digitChar,
      (n / 0x10 % 0x10).digitChar, (n % 0x10).digitChar] := by
  have step (m : Nat) : Nat.toDigits 16 m =
      if m < 16 then [m.digitChar] else Nat.toDigits 16 (m / 16) ++ [(m % 16).digitChar] :=
    Nat.toDigits_eq_if (by decide)
  have zero : Nat.digitChar 0 = '0' := rfl
  unfold Text.hexPadded
  by_cases h1 : n < 0x10
  · have e1 : n / 0x1000 = 0 := by omega
    have e2 : n / 0x100 % 0x10 = 0 := by omega
    have e3 : n / 0x10 % 0x10 = 0 := by omega
    have e4 : n % 0x10 = n := by omega
    rw [step n, if_pos h1, e1, e2, e3, e4, zero]
    rfl
  · by_cases h2 : n < 0x100
    · have e1 : n / 0x1000 = 0 := by omega
      have e2 : n / 0x100 % 0x10 = 0 := by omega
      have e3 : n / 0x10 % 0x10 = n / 0x10 := by omega
      rw [step n, if_neg h1, step (n / 16), if_pos (by omega), e1, e2, e3, zero]
      rfl
    · by_cases h3 : n < 0x1000
      · have e1 : n / 0x1000 = 0 := by omega
        have e2 : n / 0x100 % 0x10 = n / 16 / 16 := by omega
        rw [step n, if_neg h1, step (n / 16), if_neg (by omega), step (n / 16 / 16),
          if_pos (by omega), e1, e2, zero]
        rfl
      · have e1 : n / 0x1000 = n / 16 / 16 / 16 := by omega
        have e2 : n / 0x100 % 0x10 = n / 16 / 16 % 16 := by omega
        rw [step n, if_neg h1, step (n / 16), if_neg (by omega), step (n / 16 / 16),
          if_neg (by omega), step (n / 16 / 16 / 16), if_pos (by omega), e1, e2]
        rfl

theorem unit?_hexPadded {n : Nat} (h : n < 0x10000) (rest : List Char) :
    unit? (Text.hexPadded 4 n ++ rest) = some (n, rest) := by
  have d1 := hexValue?_digitChar (d := n / 0x1000) (by omega)
  have d2 := hexValue?_digitChar (d := n / 0x100 % 0x10) (by omega)
  have d3 := hexValue?_digitChar (d := n / 0x10 % 0x10) (by omega)
  have d4 := hexValue?_digitChar (d := n % 0x10) (by omega)
  have sum : ((n / 0x1000 * 16 + n / 0x100 % 0x10) * 16 + n / 0x10 % 0x10) * 16 + n % 0x10 = n := by
    omega
  rw [hexPadded_four h]
  simp only [List.cons_append, List.nil_append, unit?, d1, d2, d3, d4, Option.bind_eq_bind,
    Option.bind_some, sum]

theorem toNat_lt (c : Char) : c.toNat < 0xd800 ∨ (0xdfff < c.toNat ∧ c.toNat < 0x110000) := c.valid

/-- A character is never one of the units that only pairs are made of. -/
theorem escapedUnit?_unit {c : Char} (h : c.toNat < 0x10000) (rest : List Char) :
    escapedUnit? (Text.hexPadded 4 c.toNat ++ rest) = some (c, rest) := by
  have valid := toNat_lt c
  have high : isHigh c.toNat = false := by simp [isHigh]; omega
  have low : isLow c.toNat = false := by simp [isLow]; omega
  simp only [escapedUnit?, unit?_hexPadded h, Option.bind_eq_bind, Option.bind_some, high, low,
    Bool.false_eq_true, if_false, Char.ofNat_toNat]

theorem escapedUnit?_pair {high low : Nat} (hh : 0xd800 ≤ high ∧ high < 0xdc00)
    (hl : 0xdc00 ≤ low ∧ low < 0xe000) (rest : List Char) :
    escapedUnit? (Text.hexPadded 4 high ++ (unitText low ++ rest)) =
      some (Char.ofNat (0x10000 + (high - 0xd800) * 0x400 + (low - 0xdc00)), rest) := by
  have isHigh : isHigh high = true := by simp [isHigh, hh]
  have isLow : isLow low = true := by simp [isLow, hl]
  have first := unit?_hexPadded (n := high) (by omega) (unitText low ++ rest)
  have second := unit?_hexPadded (n := low) (by omega) rest
  simp only [escapedUnit?, first, Option.bind_eq_bind, Option.bind_some, isHigh, if_true]
  simp only [unitText, List.cons_append, second, Option.bind_some, isLow, if_true]

theorem joined_units {a n : Nat} (h : a ≤ n) (b c d : Nat) :
    a + (b + (n - a) / d - b) * d + (c + (n - a) % d - c) = n := by
  rw [Nat.add_sub_cancel_left, Nat.add_sub_cancel_left, Nat.add_assoc, Nat.mul_comm,
    Nat.div_add_mod, Nat.add_sub_cancel' h]

theorem ofNat_joined_units {c : Char} (h : 0x10000 ≤ c.toNat) :
    Char.ofNat (0x10000 + (0xd800 + (c.toNat - 0x10000) / 0x400 - 0xd800) * 0x400 +
      (0xdc00 + (c.toNat - 0x10000) % 0x400 - 0xdc00)) = c :=
  (congrArg Char.ofNat (joined_units h 0xd800 0xdc00 0x400)).trans (Char.ofNat_toNat c)

theorem escapedUnit?_units (c : Char) (rest : List Char) :
    escapedUnit? (Text.hexPadded 4 (0xd800 + (c.toNat - 0x10000) / 0x400) ++
      (unitText (0xdc00 + (c.toNat - 0x10000) % 0x400) ++ rest)) =
    some (Char.ofNat (0x10000 + (0xd800 + (c.toNat - 0x10000) / 0x400 - 0xd800) * 0x400 +
      (0xdc00 + (c.toNat - 0x10000) % 0x400 - 0xdc00)), rest) := by
  have valid := toNat_lt c
  exact escapedUnit?_pair (by omega) (by omega) rest

theorem escapedUnit?_large {c : Char} (h : 0x10000 ≤ c.toNat) (rest : List Char) :
    escapedUnit? (Text.hexPadded 4 (0xd800 + (c.toNat - 0x10000) / 0x400) ++
      (unitText (0xdc00 + (c.toNat - 0x10000) % 0x400) ++ rest)) = some (c, rest) := by
  have units := escapedUnit?_units c rest
  rw [ofNat_joined_units h] at units
  exact units

theorem unitText_append (n : Nat) (rest : List Char) :
    unitText n ++ rest = '\\' :: 'u' :: (Text.hexPadded 4 n ++ rest) := rfl

/-- A character in a string is read back with one step of the reader. -/
theorem readString_charText (c : Char) (fuel : Nat) (done rest : List Char) :
    readString (fuel + 1) done (charText c ++ rest) = readString fuel (c :: done) rest := by
  have escape {e : Char} {body : List Char} (h : escaped? body = some (e, rest)) :
      readString (fuel + 1) done ('\\' :: body) = readString fuel (e :: done) rest := by
    simp [readString, h]
  have known {n : Nat} (h : c.toNat = n) : c = Char.ofNat n := by
    rw [← h, Char.ofNat_toNat]
  unfold charText
  extract_lets n
  split
  · next h => subst h; exact escape rfl
  split
  · next h => subst h; exact escape rfl
  split
  · next h => subst h; exact escape rfl
  split
  · next h => subst h; exact escape rfl
  split
  · next h => subst h; exact escape rfl
  split
  · next h => rw [known h]; exact escape rfl
  split
  · next h => rw [known h]; exact escape rfl
  split
  · next quote slash _ _ _ _ _ h =>
    simp only [Bool.and_eq_true, decide_eq_true_eq] at h
    have plain : ¬ c.toNat < 0x20 := by omega
    simp [readString, quote, slash, plain]
  split
  · next h =>
    rw [unitText_append]
    exact escape (escapedUnit?_unit h rest)
  · next h =>
    rw [List.append_assoc, unitText_append]
    exact escape (escapedUnit?_large (Nat.le_of_not_lt h) rest)

theorem charText_ne_nil (c : Char) : charText c ≠ [] := by
  unfold charText
  extract_lets n
  repeat' first | exact List.cons_ne_nil _ _ | split

/-- Each character takes one step of the reader, and so does the quote that ends the string. -/
theorem readString_flatMap (cs done rest : List Char) {fuel : Nat} (h : cs.length < fuel) :
    readString fuel done (cs.flatMap charText ++ '"' :: rest) =
      some (String.ofList (done.reverse ++ cs), rest) := by
  induction cs generalizing done fuel with
  | nil =>
    obtain ⟨fuel, rfl⟩ := Nat.exists_eq_add_of_lt h
    simp [readString]
  | cons c cs ih =>
    obtain ⟨fuel, rfl⟩ := Nat.exists_eq_add_of_lt h
    rw [List.flatMap_cons, List.append_assoc, readString_charText, ih]
    · simp
    · simp only [List.length_cons]
      omega

theorem length_le_flatMap_charText (cs : List Char) : cs.length ≤ (cs.flatMap charText).length := by
  induction cs with
  | nil => exact Nat.le_refl _
  | cons c cs ih =>
    have : 0 < (charText c).length := List.length_pos_iff.2 (charText_ne_nil c)
    simp only [List.flatMap_cons, List.length_append, List.length_cons]
    omega

theorem readString_stringText (s : String) (rest : List Char) :
    ∃ inner, stringText s ++ rest = '"' :: inner ∧
      readString (inner.length + 1) [] inner = some (s, rest) := by
  refine ⟨s.toList.flatMap charText ++ '"' :: rest, by simp [stringText], ?_⟩
  have short := length_le_flatMap_charText s.toList
  rw [readString_flatMap]
  · simp
  · simp only [List.length_append]
    omega

/-- The number that stands in front of `rest` ends there. -/
def Ends (rest : List Char) : Prop :=
  ∀ c ∈ rest.head?, isDigit c = false ∧ c ≠ '.' ∧ c ≠ 'e' ∧ c ≠ 'E'

theorem natOfDigits_toDigits (n : Nat) : natOfDigits (Nat.toDigits 10 n) = n :=
  Nat.ofDigitChars_ten_toDigits

theorem isDigit_of_mem_toDigits {n : Nat} {c : Char} (h : c ∈ Nat.toDigits 10 n) :
    isDigit c = true := by
  have digit := Nat.isDigit_of_mem_toDigits (by decide) (by decide) h
  simp only [Char.isDigit, Bool.and_eq_true, decide_eq_true_eq] at digit
  simp only [isDigit, Bool.and_eq_true, decide_eq_true_eq]
  exact digit

theorem spanDigits_append {ds rest : List Char} (h : ∀ c ∈ ds, isDigit c = true)
    (hr : ∀ c ∈ rest.head?, isDigit c = false) : spanDigits (ds ++ rest) = (ds, rest) := by
  have nothing : rest.takeWhile isDigit = [] ∧ rest.dropWhile isDigit = rest := by
    cases rest with
    | nil => exact ⟨rfl, rfl⟩
    | cons c rest => simp [hr c rfl]
  rw [spanDigits, List.takeWhile_append_of_pos h, List.dropWhile_append_of_pos h, nothing.1,
    nothing.2, List.append_nil]

/-- Only the number zero is written with a zero in front. -/
theorem head_toDigits {n : Nat} (h : n ≠ 0) {ds : List Char} :
    Nat.toDigits 10 n ≠ '0' :: ds := by
  induction n using Nat.strongRecOn generalizing ds with
  | ind n ih =>
    rw [Nat.toDigits_eq_if (by decide)]
    split
    · next small =>
      intro same
      have : n.digitChar = '0' := (List.cons.inj same).1
      rw [Nat.digitChar_eq_zero] at this
      exact h this
    · next large =>
      intro same
      cases hd : Nat.toDigits 10 (n / 10) with
      | nil => exact Nat.toDigits_ne_nil hd
      | cons c cs =>
        rw [hd, List.cons_append] at same
        obtain ⟨rfl, -⟩ := List.cons.inj same
        exact ih (n / 10) (by omega) (by omega) hd

theorem readWhole?_toDigits (n : Nat) {rest : List Char} (h : Ends rest) :
    readWhole? (Nat.toDigits 10 n ++ rest) = some (Nat.toDigits 10 n, rest) := by
  by_cases hn : n = 0
  · subst hn
    rfl
  · have cut : spanDigits (Nat.toDigits 10 n ++ rest) = (Nat.toDigits 10 n, rest) :=
      spanDigits_append (fun c => isDigit_of_mem_toDigits) fun c hc => (h c hc).1
    unfold readWhole?
    split
    · next heq =>
      cases hd : Nat.toDigits 10 n with
      | nil => exact absurd hd Nat.toDigits_ne_nil
      | cons c cs =>
        rw [hd, List.cons_append] at heq
        obtain ⟨rfl, -⟩ := List.cons.inj heq
        exact absurd hd (head_toDigits hn)
    · rw [cut]
      simp [Nat.toDigits_ne_nil]

theorem readFraction_ends {rest : List Char} (h : Ends rest) : readFraction rest = (none, rest) := by
  unfold readFraction
  split
  · exact absurd rfl (h '.' rfl).2.1
  · rfl

theorem readExponent_ends {rest : List Char} (h : Ends rest) : readExponent rest = (none, rest) := by
  unfold readExponent
  split
  · next c _ =>
    have := (h c rfl).2.2
    simp [this.1, this.2]
  · rfl

theorem toDigits_ne_cons_of_not_digit {c : Char} (h : isDigit c = false) (n : Nat) (cs : List Char) :
    Nat.toDigits 10 n ≠ c :: cs := by
  intro same
  have digit : isDigit c = true := isDigit_of_mem_toDigits (n := n) (by simp [same])
  rw [h] at digit
  cases digit

theorem readNumber_intText (n : Int) {rest : List Char} (h : Ends rest) :
    readNumber (intText n ++ rest) = some (.int n, rest) := by
  have whole := readWhole?_toDigits n.natAbs h
  by_cases hn : n < 0
  · have value : -(n.natAbs : Int) = n := by omega
    generalize size : n.natAbs = m at whole value
    simp [intText, hn, size, readNumber, whole, readFraction_ends h, readExponent_ends h,
      natOfDigits_toDigits, value]
  · have value : (n.natAbs : Int) = n := by omega
    have digits := natOfDigits_toDigits n.natAbs
    cases hd : Nat.toDigits 10 n.natAbs with
    | nil => exact absurd hd Nat.toDigits_ne_nil
    | cons c cs =>
      have unsigned : c ≠ '-' := by
        rintro rfl
        exact toDigits_ne_cons_of_not_digit rfl _ _ hd
      rw [hd, List.cons_append] at whole
      rw [hd] at digits
      simp [intText, hn, hd, readNumber, unsigned, whole, readFraction_ends h, readExponent_ends h,
        digits, value]

end LanguageClient.Json
