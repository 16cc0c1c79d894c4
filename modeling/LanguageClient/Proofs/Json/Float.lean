import LanguageClient.Proofs.Json.Token
import LanguageClient.Proofs.Number.Shortest

/-!
A floating-point number is read back from its text.
-/

namespace LanguageClient.Json

open Binary64

theorem natOfDigits_append (ds es : List Char) :
    natOfDigits (ds ++ es) = natOfDigits ds * 10 ^ es.length + natOfDigits es := by
  unfold natOfDigits
  rw [List.foldl_append]
  generalize ds.foldl (fun n c => 10 * n + (c.toNat - 0x30)) 0 = start
  induction es generalizing start with
  | nil => simp
  | cons c es ih =>
    rw [List.foldl_cons, ih, List.foldl_cons, ih (10 * 0 + _), List.length_cons, pow_succ]
    ring

theorem natOfDigits_zeros (zeros : Nat) : natOfDigits (List.replicate zeros '0') = 0 := by
  induction zeros with
  | zero => rfl
  | succ zeros ih => rw [List.replicate_succ', natOfDigits_append, ih]; rfl

theorem natOfDigits_append_zeros (ds : List Char) (zeros : Nat) :
    natOfDigits (ds ++ List.replicate zeros '0') = natOfDigits ds * 10 ^ zeros := by
  rw [natOfDigits_append, natOfDigits_zeros, List.length_replicate, Nat.add_zero]

/-- Digits that a whole number other than zero can start with. -/
structure Leading (ds : List Char) : Prop where
  ne_nil : ds ≠ []
  digits : ∀ c ∈ ds, isDigit c = true
  first : ∀ c ∈ ds.head?, c ≠ '0'

/-- Nothing after digits that would belong to them. -/
def NoDigit (rest : List Char) : Prop := ∀ c ∈ rest.head?, isDigit c = false

theorem readWhole?_leading {ds rest : List Char} (h : Leading ds) (hr : NoDigit rest) :
    readWhole? (ds ++ rest) = some (ds, rest) := by
  have cut := spanDigits_append h.digits hr
  unfold readWhole?
  split
  · next heq =>
    cases ds with
    | nil => exact absurd rfl h.ne_nil
    | cons c ds => exact absurd (List.cons.inj heq).1 (h.first c rfl)
  · rw [cut]
    simp [h.ne_nil]

theorem readFraction_digits {ds rest : List Char} (hne : ds ≠ [])
    (digits : ∀ c ∈ ds, isDigit c = true) (hr : NoDigit rest) :
    readFraction ('.' :: (ds ++ rest)) = (some ds, rest) := by
  simp [readFraction, spanDigits_append digits hr, hne]

/-- The digits of an exponent, at least two. -/
def exponentDigits (n : Nat) : List Char :=
  if (Nat.toDigits 10 n).length < 2 then '0' :: Nat.toDigits 10 n else Nat.toDigits 10 n

theorem isDigit_of_mem_exponentDigits {n : Nat} {c : Char} (h : c ∈ exponentDigits n) :
    isDigit c = true := by
  unfold exponentDigits at h
  split at h
  · rcases List.mem_cons.1 h with rfl | h
    · rfl
    · exact isDigit_of_mem_toDigits h
  · exact isDigit_of_mem_toDigits h

theorem exponentDigits_ne_nil (n : Nat) : exponentDigits n ≠ [] := by
  unfold exponentDigits
  split
  · exact List.cons_ne_nil _ _
  · exact Nat.toDigits_ne_nil

theorem natOfDigits_exponentDigits (n : Nat) : natOfDigits (exponentDigits n) = n := by
  unfold exponentDigits
  split <;> exact natOfDigits_toDigits n

theorem readExponent_text (n : Int) {rest : List Char} (hr : NoDigit rest) :
    readExponent ('e' :: (exponentText n ++ rest)) = (some n, rest) := by
  have digits : ∀ c ∈ exponentDigits n.natAbs, isDigit c = true :=
    fun _ => isDigit_of_mem_exponentDigits
  have cut := spanDigits_append digits hr
  have ne := exponentDigits_ne_nil n.natAbs
  have text : exponentText n = (if n < 0 then ['-'] else ['+']) ++ exponentDigits n.natAbs := rfl
  by_cases hn : n < 0
  · have value : -(natOfDigits (exponentDigits n.natAbs) : Int) = n := by
      rw [natOfDigits_exponentDigits]
      omega
    simp [text, hn, readExponent, cut, ne, value]
  · have value : (natOfDigits (exponentDigits n.natAbs) : Int) = n := by
      rw [natOfDigits_exponentDigits]
      omega
    simp [text, hn, readExponent, cut, ne, value]

def signText (negative : Bool) : List Char := if negative then ['-'] else []

/-- A number with a fraction or an exponent, put together from its parts. -/
theorem readNumber_parts (negative : Bool) {c : Char} {cs whole rest₁ rest₂ rest₃ : List Char}
    {fraction : Option (List Char)} {exponent : Option Int} (unsigned : c ≠ '-')
    (hw : readWhole? (c :: cs) = some (whole, rest₁))
    (hf : readFraction rest₁ = (fraction, rest₂)) (hx : readExponent rest₂ = (exponent, rest₃))
    (float : fraction.isSome ∨ exponent.isSome) :
    readNumber (signText negative ++ c :: cs) =
      some (.float (.ofDecimal negative (natOfDigits (whole ++ fraction.getD []))
        (exponent.getD 0 - (fraction.getD []).length)), rest₃) := by
  cases negative <;> cases fraction <;> cases exponent <;>
    simp_all [readNumber, signText]

namespace Leading

variable {ds : List Char}

theorem head (h : Leading ds) :
    ∃ c cs, ds = c :: cs ∧ isDigit c = true ∧ c ≠ '0' ∧ c ≠ '-' := by
  obtain ⟨c, cs, rfl⟩ := List.exists_cons_of_ne_nil h.ne_nil
  have digit := h.digits c List.mem_cons_self
  refine ⟨c, cs, rfl, digit, h.first c rfl, ?_⟩
  rintro rfl
  cases digit

theorem append_zeros (h : Leading ds) (zeros : Nat) :
    Leading (ds ++ List.replicate zeros '0') := by
  obtain ⟨c, cs, rfl, -, first, -⟩ := h.head
  refine ⟨List.cons_ne_nil _ _, fun x hx => ?_, fun x hx => ?_⟩
  · rcases List.mem_append.1 hx with hx | hx
    · exact h.digits x hx
    · rw [List.eq_of_mem_replicate hx]
      rfl
  · cases hx
    exact first

theorem take (h : Leading ds) {count : Nat} (hc : 0 < count) : Leading (ds.take count) := by
  obtain ⟨c, cs, rfl, -, first, -⟩ := h.head
  obtain ⟨count, rfl⟩ := Nat.exists_eq_succ_of_ne_zero hc.ne'
  refine ⟨List.cons_ne_nil _ _, fun x hx => h.digits x (List.mem_of_mem_take hx), fun x hx => ?_⟩
  cases hx
  exact first

end Leading

/-- Digits that are the whole part of a number, whatever no digit follows. -/
structure Whole (ds : List Char) : Prop where
  ne_nil : ds ≠ []
  unsigned : ∀ c ∈ ds.head?, c ≠ '-'
  reads : ∀ rest, NoDigit rest → readWhole? (ds ++ rest) = some (ds, rest)

theorem whole_zero : Whole ['0'] := by
  refine ⟨List.cons_ne_nil _ _, fun c hc => ?_, fun _ _ => rfl⟩
  cases hc
  decide

theorem isDigit_of_mem_zero : ∀ c ∈ ['0'], isDigit c = true := List.forall_mem_singleton.2 rfl

theorem Leading.whole {ds : List Char} (h : Leading ds) : Whole ds := by
  obtain ⟨c, cs, rfl, -, -, unsigned⟩ := h.head
  refine ⟨h.ne_nil, fun x hx => ?_, fun rest => readWhole?_leading h⟩
  cases hx
  exact unsigned

theorem noDigit_cons {c : Char} (h : isDigit c = false) (rest : List Char) :
    NoDigit (c :: rest) := by
  intro d hd
  cases hd
  exact h

theorem Ends.noDigit {rest : List Char} (h : Ends rest) : NoDigit rest := fun c hc => (h c hc).1

section

variable (negative : Bool) {whole fraction rest : List Char}

/-- Digits, a point, and digits. -/
theorem readNumber_positional (hw : Whole whole) (hf : fraction ≠ [])
    (digits : ∀ c ∈ fraction, isDigit c = true) (ends : Ends rest) :
    readNumber (signText negative ++ (whole ++ '.' :: (fraction ++ rest))) =
      some (.float (.ofDecimal negative (natOfDigits (whole ++ fraction)) (-fraction.length)),
        rest) := by
  obtain ⟨c, cs, rfl⟩ := List.exists_cons_of_ne_nil hw.ne_nil
  have number := readNumber_parts negative (hw.unsigned c rfl)
    (hw.reads _ (noDigit_cons rfl _)) (readFraction_digits hf digits ends.noDigit)
    (readExponent_ends ends) (.inl rfl)
  simpa using number

/-- Digits and an exponent. -/
theorem readNumber_exponent (hw : Whole whole) (n : Int) (ends : Ends rest) :
    readNumber (signText negative ++ (whole ++ 'e' :: (exponentText n ++ rest))) =
      some (.float (.ofDecimal negative (natOfDigits whole) n), rest) := by
  obtain ⟨c, cs, rfl⟩ := List.exists_cons_of_ne_nil hw.ne_nil
  have number := readNumber_parts negative (hw.unsigned c rfl) (hw.reads _ (noDigit_cons rfl _))
    (show readFraction ('e' :: (exponentText n ++ rest)) = (none, _) from rfl)
    (readExponent_text n ends.noDigit) (.inr rfl)
  simpa using number

/-- Digits, a point, digits, and an exponent. -/
theorem readNumber_scientific (hw : Whole whole) (hf : fraction ≠ [])
    (digits : ∀ c ∈ fraction, isDigit c = true) (n : Int) (ends : Ends rest) :
    readNumber (signText negative ++
        (whole ++ '.' :: (fraction ++ 'e' :: (exponentText n ++ rest)))) =
      some (.float (.ofDecimal negative (natOfDigits (whole ++ fraction)) (n - fraction.length)),
        rest) := by
  obtain ⟨c, cs, rfl⟩ := List.exists_cons_of_ne_nil hw.ne_nil
  have number := readNumber_parts negative (hw.unsigned c rfl)
    (hw.reads _ (noDigit_cons rfl _)) (readFraction_digits hf digits (noDigit_cons rfl _))
    (readExponent_text n ends.noDigit) (.inl rfl)
  simpa using number

variable {ds : List Char}

/-- The point in front of the digits. -/
theorem readNumber_front (h : Leading ds) (zeros : Nat) (ends : Ends rest) :
    readNumber (signText negative ++
        ('0' :: '.' :: (List.replicate zeros '0' ++ ds) ++ rest)) =
      some (.float (.ofDecimal negative (natOfDigits ds) (-zeros - ds.length)), rest) := by
  have digits : ∀ c ∈ List.replicate zeros '0' ++ ds, isDigit c = true := by
    intro c hc
    rcases List.mem_append.1 hc with hc | hc
    · rw [List.eq_of_mem_replicate hc]
      rfl
    · exact h.digits c hc
  have number := readNumber_positional negative whole_zero
    (List.append_ne_nil_of_right_ne_nil _ h.ne_nil) digits ends
  have value : natOfDigits (['0'] ++ (List.replicate zeros '0' ++ ds)) = natOfDigits ds := by
    rw [← List.append_assoc, ← List.replicate_one, List.replicate_append_replicate,
      natOfDigits_append, natOfDigits_zeros, Nat.zero_mul, Nat.zero_add]
  have place : -((List.replicate zeros '0' ++ ds).length : Int) = -zeros - ds.length := by
    rw [List.length_append, List.length_replicate]
    omega
  rwa [value, place] at number

/-- The point behind the digits. -/
theorem readNumber_behind (h : Leading ds) (pos : 0 < natOfDigits ds) (zeros : Nat)
    (ends : Ends rest) :
    readNumber (signText negative ++
        (ds ++ List.replicate zeros '0' ++ ['.', '0'] ++ rest)) =
      some (.float (.ofDecimal negative (natOfDigits ds) zeros), rest) := by
  have number := readNumber_positional negative (h.append_zeros zeros).whole
    (List.cons_ne_nil '0' []) isDigit_of_mem_zero ends
  have value : natOfDigits (ds ++ List.replicate zeros '0' ++ ['0']) =
      natOfDigits ds * 10 ^ (zeros + 1) := by
    rw [List.append_assoc, ← List.replicate_succ', natOfDigits_append_zeros]
  have same : ofDecimal negative (natOfDigits ds * 10 ^ (zeros + 1)) (-([ '0'].length : Int)) =
      ofDecimal negative (natOfDigits ds) zeros := by
    refine ofDecimal_congr negative (Nat.mul_pos pos (by positivity)) pos ?_
    push_cast
    rw [mul_assoc, ← zpow_natCast, ← zpow_add₀ (by norm_num)]
    simp
  rw [value, same] at number
  simpa using number

/-- The point between the digits. -/
theorem readNumber_inside (h : Leading ds) {count : Nat} (hc : 0 < count)
    (short : count < ds.length) (ends : Ends rest) :
    readNumber (signText negative ++ (ds.take count ++ '.' :: ds.drop count ++ rest)) =
      some (.float (.ofDecimal negative (natOfDigits ds) (count - ds.length)), rest) := by
  have number := readNumber_positional negative (h.take hc).whole
    (mt List.drop_eq_nil_iff.1 (not_le.2 short)) (fun c hc => h.digits c (List.mem_of_mem_drop hc)) ends
  have place : -((ds.drop count).length : Int) = count - ds.length := by
    rw [List.length_drop]
    omega
  rw [List.take_append_drop, place] at number
  simpa using number

/-- The text of a decimal is read as its digits and the place of its point. -/
theorem readNumber_text (h : Leading ds) (pos : 0 < natOfDigits ds) (point : Int)
    (ends : Ends rest) :
    readNumber (signText negative ++ (Decimal.text ⟨ds, point⟩ ++ rest)) =
      some (.float (.ofDecimal negative (natOfDigits ds) (point - ds.length)), rest) := by
  unfold Decimal.text
  simp only
  split
  · split
    · next left =>
      have number := readNumber_front negative h (-point).toNat ends
      rwa [show -((-point).toNat : Int) = point by omega] at number
    · split
      · next right =>
        have number := readNumber_behind negative h pos (point - ds.length).toNat ends
        rwa [show ((point - ds.length).toNat : Int) = point - ds.length by omega] at number
      · next inside =>
        have some : 0 < point.toNat := by omega
        have number := readNumber_inside negative h some (by omega) ends
        rwa [show (point.toNat : Int) = point by omega] at number
  · split
    · exact absurd rfl h.ne_nil
    · have number := readNumber_exponent negative h.whole (point - 1) ends
      simpa using number
    · next c tail more =>
      have number := readNumber_scientific negative (h.take Nat.one_pos).whole more
        (fun d hd => h.digits d (List.mem_cons_of_mem c hd)) (point - 1) ends
      have place : point - 1 - (tail.length : Int) = point - (c :: tail).length := by
        rw [List.length_cons]
        omega
      rw [place] at number
      simpa using number

end

theorem text_head {ds : List Char} (h : Leading ds) (point : Int) :
    ∃ c cs, isDigit c = true ∧ Decimal.text ⟨ds, point⟩ = c :: cs := by
  obtain ⟨c, cs, rfl, digit, -⟩ := h.head
  unfold Decimal.text
  simp only
  split
  · split
    · exact ⟨'0', _, rfl, rfl⟩
    · split
      · exact ⟨c, _, digit, rfl⟩
      · next inside =>
        obtain ⟨count, hc⟩ := Nat.exists_eq_succ_of_ne_zero (show point.toNat ≠ 0 by omega)
        rw [hc]
        exact ⟨c, _, digit, rfl⟩
  · cases cs with
    | nil => exact ⟨c, _, digit, rfl⟩
    | cons d cs => exact ⟨c, _, digit, rfl⟩

/-- The shortest reading of a number has the digits of a whole number. -/
theorem shortest_reads {m : Nat} {e : Int} (h : Normal m e) (hm : 0 < m) :
    Leading (shortest m e).digits ∧ 0 < natOfDigits (shortest m e).digits ∧
      ∀ negative, ofDecimal negative (natOfDigits (shortest m e).digits)
        ((shortest m e).point - (shortest m e).digits.length) = .finite negative m e := by
  obtain ⟨k, zeros, cut, back⟩ := shortest_spec h hm
  generalize shortest m e = d at cut back ⊢
  have value : natOfDigits d.digits * 10 ^ zeros = k := by
    rw [← natOfDigits_append_zeros, ← cut, natOfDigits_toDigits]
  have hk : k ≠ 0 := by
    rintro rfl
    have zero := back false
    rw [ofDecimal, if_pos rfl] at zero
    cases zero
    exact absurd hm (lt_irrefl 0)
  have pos : 0 < natOfDigits d.digits := Nat.pos_of_ne_zero fun none => by
    rw [none, Nat.zero_mul] at value
    exact hk value.symm
  refine ⟨⟨fun none => ?_, fun c hc => ?_, fun c hc => ?_⟩, pos, fun negative => ?_⟩
  · rw [none] at pos
    exact absurd pos (lt_irrefl 0)
  · exact isDigit_of_mem_toDigits (n := k) (by rw [cut]; exact List.mem_append_left _ hc)
  · rintro rfl
    obtain ⟨tail, same⟩ := List.head?_eq_some_iff.1 hc
    rw [same] at cut
    exact head_toDigits hk cut
  · rw [← back negative]
    refine ofDecimal_congr negative pos (Nat.pos_of_ne_zero hk) ?_
    have shift : (d.point - d.digits.length : Int) = zeros + (d.point - d.digits.length - zeros) := by
      omega
    rw [← value, shift, zpow_add₀ (by norm_num), zpow_natCast]
    push_cast
    rw [add_sub_cancel_left, mul_assoc]

theorem isDigit_of_mem_shortest {m : Nat} {e : Int} (h : Normal m e) {c : Char}
    (hc : c ∈ (shortest m e).digits) : isDigit c = true := by
  obtain rfl | hm := Nat.eq_zero_or_pos m
  · rw [List.mem_singleton.1 hc]
    rfl
  · exact (shortest_reads h hm).1.digits c hc

theorem floatText_finite (negative : Bool) (m : Nat) (e : Int) :
    floatText (.finite negative m e) = signText negative ++ Decimal.text (shortest m e) := by
  rw [floatText, textWith, String.toList_ofList]
  rfl

theorem finite_head {m : Nat} {e : Int} (h : Normal m e) :
    ∃ c cs, isDigit c = true ∧ Decimal.text (shortest m e) = c :: cs := by
  obtain rfl | hm := Nat.eq_zero_or_pos m
  · exact ⟨'0', _, rfl, rfl⟩
  · exact text_head (shortest_reads h hm).1 _

theorem readNumber_finite (negative : Bool) {m : Nat} {e : Int} (h : Normal m e)
    {rest : List Char} (ends : Ends rest) :
    readNumber (floatText (.finite negative m e) ++ rest) =
      some (.float (.finite negative m e), rest) := by
  rw [floatText_finite, List.append_assoc]
  obtain rfl | hm := Nat.eq_zero_or_pos m
  · -- zero is written as `0.0`
    have least : e = minExponent := h.full.resolve_right (by decide)
    subst least
    exact readNumber_positional negative whole_zero (List.cons_ne_nil '0' []) isDigit_of_mem_zero
      ends
  · obtain ⟨leading, pos, back⟩ := shortest_reads h hm
    rw [← back negative]
    exact readNumber_text negative leading pos _ ends

example : floatText (.finite false 7205759403792794 (-56)) = ['0', '.', '1'] := by decide +kernel

end LanguageClient.Json
