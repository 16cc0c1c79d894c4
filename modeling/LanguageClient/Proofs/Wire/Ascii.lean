import LanguageClient.Proofs.Json.RoundTrip
import LanguageClient.Wire.Reader

/-!
Text of ASCII characters is the same in bytes as in characters. The text of a value is such a text.
-/

namespace LanguageClient

namespace Text

def Ascii (cs : List Char) : Prop := ∀ c ∈ cs, c.toNat < 0x80

instance (cs : List Char) : Decidable (Ascii cs) :=
  List.decidableBAll (fun c : Char => c.toNat < 0x80) cs

def bytesOf (cs : List Char) : Bytes := cs.map fun c => c.toNat.toUInt8

theorem ascii_nil : Ascii [] := fun _ h => absurd h List.not_mem_nil

theorem ascii_cons {c : Char} {cs : List Char} :
    Ascii (c :: cs) ↔ c.toNat < 0x80 ∧ Ascii cs := List.forall_mem_cons

theorem ascii_append {cs ds : List Char} : Ascii (cs ++ ds) ↔ Ascii cs ∧ Ascii ds :=
  List.forall_mem_append

theorem ascii_flatMap {α : Type} {xs : List α} {f : α → List Char} (h : ∀ x ∈ xs, Ascii (f x)) :
    Ascii (xs.flatMap f) := by
  intro c hc
  obtain ⟨x, hx, inside⟩ := List.mem_flatMap.1 hc
  exact h x hx c inside

theorem bytesOf_append (cs ds : List Char) : bytesOf (cs ++ ds) = bytesOf cs ++ bytesOf ds :=
  List.map_append

theorem length_bytesOf (cs : List Char) : (bytesOf cs).length = cs.length := List.length_map _

theorem toNat_byte {c : Char} (h : c.toNat < 0x80) : c.toNat.toUInt8.toNat = c.toNat :=
  UInt8.toNat_ofNat_of_lt' (Nat.lt_trans h (by decide))

theorem byte_lt {c : Char} (h : c.toNat < 0x80) : c.toNat.toUInt8 < 0x80 := by
  rw [UInt8.lt_iff_toNat_lt, toNat_byte h]
  exact h

theorem ofNat_byte {c : Char} (h : c.toNat < 0x80) : Char.ofNat c.toNat.toUInt8.toNat = c := by
  rw [toNat_byte h, Char.ofNat_toNat]

theorem asciiLossy_bytesOf {cs : List Char} (h : Ascii cs) : asciiLossy (bytesOf cs) = cs := by
  induction cs with
  | nil => rfl
  | cons c cs ih =>
    obtain ⟨here, later⟩ := ascii_cons.1 h
    simp only [asciiLossy, bytesOf, List.map_cons, byte_lt here, if_true, ofNat_byte here]
    exact congrArg (c :: ·) (ih later)

theorem decode?_bytesOf {cs : List Char} (h : Ascii cs) : Utf8.decode? (bytesOf cs) = some cs := by
  unfold Utf8.decode?
  induction cs with
  | nil => rfl
  | cons c cs ih =>
    obtain ⟨here, later⟩ := ascii_cons.1 h
    have first : Utf8.first c.toNat.toUInt8 = .char c := by
      rw [Utf8.first, if_pos (byte_lt here), ofNat_byte here]
    have next := ih later
    simp only [bytesOf] at next
    simp [bytesOf, Utf8.decodeFrom?, first, next]

theorem ascii_of_isDigit {cs : List Char} (h : ∀ c ∈ cs, Json.isDigit c = true) : Ascii cs := by
  intro c hc
  have digit := h c hc
  simp only [Json.isDigit, Bool.and_eq_true, decide_eq_true_eq] at digit
  have upper : c.toNat ≤ '9'.toNat := digit.2
  exact Nat.lt_of_le_of_lt upper (by decide)

theorem ascii_digits (n : Nat) : Ascii (Nat.toDigits 10 n) :=
  ascii_of_isDigit fun _ => Json.isDigit_of_mem_toDigits

end Text

namespace Json

open Text (Ascii ascii_nil ascii_cons ascii_append ascii_flatMap ascii_digits ascii_of_isDigit)

theorem ascii_digitChar {d : Nat} (h : d < 16) : d.digitChar.toNat < 0x80 :=
  (by decide : ∀ d : Fin 16, d.val.digitChar.toNat < 0x80) ⟨d, h⟩

theorem ascii_unitText {n : Nat} (h : n < 0x10000) : Ascii (unitText n) := by
  have first := ascii_digitChar (d := n / 0x1000) (by omega)
  have second := ascii_digitChar (d := n / 0x100 % 0x10) (by omega)
  have third := ascii_digitChar (d := n / 0x10 % 0x10) (by omega)
  have fourth := ascii_digitChar (d := n % 0x10) (by omega)
  rw [unitText, hexPadded_four h]
  simp only [ascii_cons, first, second, third, fourth, ascii_nil, and_true]
  decide

theorem ascii_units (c : Char) :
    Ascii (unitText (0xd800 + (c.toNat - 0x10000) / 0x400)) ∧
      Ascii (unitText (0xdc00 + (c.toNat - 0x10000) % 0x400)) := by
  have valid := toNat_lt c
  exact ⟨ascii_unitText (by omega), ascii_unitText (by omega)⟩

theorem ascii_charText (c : Char) : Ascii (charText c) := by
  have pair {e : Char} (he : e.toNat < 0x80) : Ascii ['\\', e] :=
    ascii_cons.2 ⟨by decide, ascii_cons.2 ⟨he, ascii_nil⟩⟩
  unfold charText
  extract_lets n
  repeat' split
  all_goals try exact pair (by decide)
  · next h =>
    simp only [Bool.and_eq_true, decide_eq_true_eq] at h
    exact ascii_cons.2 ⟨Nat.lt_trans h.2 (by decide), ascii_nil⟩
  · next h => exact ascii_unitText h
  · exact ascii_append.2 (ascii_units c)

theorem ascii_stringText (s : String) : Ascii (stringText s) := by
  have inner : Ascii (s.toList.flatMap charText) := ascii_flatMap fun c _ => ascii_charText c
  have quote : Ascii ['"'] := by decide
  exact ascii_cons.2 ⟨by decide, ascii_append.2 ⟨inner, quote⟩⟩

theorem ascii_intText (n : Int) : Ascii (intText n) := by
  refine ascii_append.2 ⟨?_, ascii_digits _⟩
  split
  · decide
  · exact ascii_nil

theorem ascii_zeros (zeros : Nat) : Ascii (List.replicate zeros '0') := by
  intro c hc
  rw [List.eq_of_mem_replicate hc]
  decide

theorem ascii_exponentText (n : Int) : Ascii (Binary64.exponentText n) := by
  refine ascii_append.2 ⟨?_, ascii_of_isDigit fun c => isDigit_of_mem_exponentDigits⟩
  split <;> decide

theorem ascii_text {ds : List Char} (h : Ascii ds) (point : Int) :
    Ascii (Binary64.Decimal.text ⟨ds, point⟩) := by
  have lone (c : Char) (hc : c.toNat < 0x80) {cs : List Char} (rest : Ascii cs) : Ascii (c :: cs) :=
    ascii_cons.2 ⟨hc, rest⟩
  unfold Binary64.Decimal.text
  simp only
  split
  · split
    · exact lone '0' (by decide) (lone '.' (by decide) (ascii_append.2 ⟨ascii_zeros _, h⟩))
    · split
      · exact ascii_append.2 ⟨ascii_append.2 ⟨h, ascii_zeros _⟩, by decide⟩
      · exact ascii_append.2 ⟨fun c hc => h c (List.mem_of_mem_take hc),
          lone '.' (by decide) fun c hc => h c (List.mem_of_mem_drop hc)⟩
  · refine ascii_append.2 ⟨?_, lone 'e' (by decide) (ascii_exponentText _)⟩
    split
    · decide
    · exact h
    · next c cs _ =>
      obtain ⟨first, later⟩ := ascii_cons.1 h
      exact lone c first (lone '.' (by decide) later)

theorem ascii_floatText {x : Binary64} (h : x.Canonical) : Ascii (floatText x) := by
  cases x with
  | nan => decide
  | infinite negative => cases negative <;> decide
  | finite negative m e =>
    rw [floatText_finite]
    refine ascii_append.2 ⟨?_, ascii_text (ascii_of_isDigit fun c => isDigit_of_mem_shortest h) _⟩
    cases negative <;> decide

theorem ascii_printItems {items : List Value} (each : ∀ v ∈ items, Ascii (print compact v)) :
    Ascii (printItems compact items) := by
  induction items with
  | nil => exact ascii_nil
  | cons v items ih =>
    have first := each v List.mem_cons_self
    have later := ih fun w hw => each w (List.mem_cons_of_mem _ hw)
    cases items with
    | nil => exact first
    | cons w items =>
      have comma : Ascii compact.item := by decide
      exact ascii_append.2 ⟨ascii_append.2 ⟨first, comma⟩, later⟩

theorem ascii_printEntries {members : List (String × Value)}
    (each : ∀ m ∈ members, Ascii (print compact m.2)) :
    Ascii (printEntries compact (entriesOf members)) := by
  induction members with
  | nil => exact ascii_nil
  | cons m members ih =>
    have colon : Ascii compact.name := by decide
    have first : Ascii (printEntry compact (.text m.1, m.2)) :=
      ascii_append.2 ⟨ascii_append.2 ⟨ascii_stringText m.1, colon⟩, each m List.mem_cons_self⟩
    have later := ih fun x hx => each x (List.mem_cons_of_mem _ hx)
    cases members with
    | nil => exact first
    | cons x members =>
      have comma : Ascii compact.item := by decide
      exact ascii_append.2 ⟨ascii_append.2 ⟨first, comma⟩, later⟩

theorem ascii_print {v : Value} (h : Faithful v) : Ascii (print compact v) := by
  have bracket : Ascii [']'] := by decide
  have brace : Ascii ['}'] := by decide
  induction h with
  | null => exact (by decide : Ascii nullText)
  | bool b => exact (by decide : ∀ b, Ascii (boolText b)) b
  | int n => exact ascii_intText n
  | float x canonical => exact ascii_floatText canonical
  | text s => exact ascii_stringText s
  | list items _ each =>
    rw [print]
    exact ascii_cons.2 ⟨by decide, ascii_append.2 ⟨ascii_printItems each, bracket⟩⟩
  | record members _ _ each =>
    rw [Value.record, print]
    exact ascii_cons.2 ⟨by decide, ascii_append.2 ⟨ascii_printEntries each, brace⟩⟩

end Json
end LanguageClient
