import LanguageClient.Proofs.Json.Float

/-!
A value whose mappings have names for keys, each once, is read back from its text.
-/

namespace LanguageClient.Json

/-- A value without floating-point numbers that its text says everything about. -/
inductive Lossless : Value → Prop
  | null : Lossless .null
  | bool (b : Bool) : Lossless (.bool b)
  | int (n : Int) : Lossless (.int n)
  | text (s : String) : Lossless (.text s)
  | list (items : List Value) (each : ∀ v ∈ items, Lossless v) : Lossless (.list items)
  | record (members : List (String × Value)) (each : ∀ m ∈ members, Lossless m.2)
      (once : (members.map (·.1)).Nodup) : Lossless (.record members)

/-- A value that its text says everything about. -/
inductive Faithful : Value → Prop
  | null : Faithful .null
  | bool (b : Bool) : Faithful (.bool b)
  | int (n : Int) : Faithful (.int n)
  | float (x : Binary64) (canonical : x.Canonical) : Faithful (.float x)
  | text (s : String) : Faithful (.text s)
  | list (items : List Value) (each : ∀ v ∈ items, Faithful v) : Faithful (.list items)
  | record (members : List (String × Value)) (each : ∀ m ∈ members, Faithful m.2)
      (once : (members.map (·.1)).Nodup) : Faithful (.record members)

theorem Lossless.faithful {v : Value} (h : Lossless v) : Faithful v := by
  induction h with
  | null => exact .null
  | bool b => exact .bool b
  | int n => exact .int n
  | text s => exact .text s
  | list items _ each => exact .list items each
  | record members _ once each => exact .record members each once

def entriesOf (members : List (String × Value)) : Entries :=
  members.map fun m => (.text m.1, m.2)

theorem ne_of_isDigit {c w : Char} (h : isDigit c = true) (hw : isDigit w = false) : w ≠ c := by
  rintro rfl
  rw [h] at hw
  cases hw

theorem readWord_digit {c : Char} (h : isDigit c = true) (cs : List Char) :
    readWord (c :: cs) = none := by
  have apart {w : Char} (hw : isDigit w = false) : w ≠ c := ne_of_isDigit h hw
  simp [readWord, words, apart (w := 'n') rfl, apart (w := 't') rfl, apart (w := 'f') rfl,
    apart (w := 'N') rfl, apart (w := 'I') rfl, apart (w := '-') rfl]

theorem readWord_minus {c : Char} (h : isDigit c = true) (cs : List Char) :
    readWord ('-' :: c :: cs) = none := by
  have apart : 'I' ≠ c := ne_of_isDigit h rfl
  simp [readWord, words, apart]

/-- What a number's text starts with. -/
def Numeral (cs : List Char) : Prop :=
  ∃ c tail, isDigit c = true ∧ (cs = c :: tail ∨ cs = '-' :: c :: tail)

theorem numeral_intText (n : Int) : Numeral (intText n) := by
  cases hd : Nat.toDigits 10 n.natAbs with
  | nil => exact absurd hd Nat.toDigits_ne_nil
  | cons c cs =>
    have digit : isDigit c = true := isDigit_of_mem_toDigits (n := n.natAbs) (by simp [hd])
    refine ⟨c, cs, digit, ?_⟩
    by_cases hn : n < 0
    · exact .inr (by simp [intText, hn, hd])
    · exact .inl (by simp [intText, hn, hd])

theorem numeral_finite (negative : Bool) {m : Nat} {e : Int} (h : Binary64.Normal m e) :
    Numeral (floatText (.finite negative m e)) := by
  obtain ⟨c, cs, digit, text⟩ := finite_head h
  rw [floatText_finite, text]
  cases negative with
  | true => exact ⟨c, cs, digit, .inr rfl⟩
  | false => exact ⟨c, cs, digit, .inl rfl⟩

theorem readWord_numeral {cs : List Char} (h : Numeral cs) (rest : List Char) :
    readWord (cs ++ rest) = none := by
  obtain ⟨c, tail, digit, rfl | rfl⟩ := h
  · exact readWord_digit digit _
  · exact readWord_minus digit _

/-- The first character tells that a string, a list or a mapping does not start here. -/
theorem readValue_scalar {c : Char} {cs : List Char} (fuel : Nat)
    (h : c ≠ '"' ∧ c ≠ '[' ∧ c ≠ '{') :
    readValue (fuel + 1) (c :: cs) = match readWord (c :: cs) with
      | some r => some r
      | none => readNumber (c :: cs) := by
  obtain ⟨quote, bracket, brace⟩ := h
  have plain (d : Char) (ne : c ≠ d) : ∀ rest, c :: cs = d :: rest → False :=
    fun _ same => ne (List.cons.inj same).1
  have text := plain '"' quote
  have items := plain '[' bracket
  have members := plain '{' brace
  rw [readValue] <;> first | assumption | rfl

theorem not_opening_of_isDigit {c : Char} (h : isDigit c = true) :
    c ≠ '"' ∧ c ≠ '[' ∧ c ≠ '{' := by
  refine ⟨?_, ?_, ?_⟩ <;> (rintro rfl; exact absurd h (by decide))

theorem readValue_numeral {cs rest : List Char} {v : Value} (h : Numeral cs) {fuel : Nat}
    (hf : 0 < fuel) (number : readNumber (cs ++ rest) = some (v, rest)) :
    readValue fuel (cs ++ rest) = some (v, rest) := by
  obtain ⟨fuel, rfl⟩ := Nat.exists_eq_add_of_lt hf
  have word := readWord_numeral h rest
  obtain ⟨c, tail, digit, rfl | rfl⟩ := h
  · rw [List.cons_append] at word number ⊢
    rw [readValue_scalar _ (not_opening_of_isDigit digit), word]
    exact number
  · rw [List.cons_append] at word number ⊢
    rw [readValue_scalar _ (by decide), word]
    exact number

theorem readValue_int (n : Int) {fuel : Nat} (hf : 0 < fuel) {rest : List Char} (h : Ends rest) :
    readValue fuel (intText n ++ rest) = some (.int n, rest) :=
  readValue_numeral (numeral_intText n) hf (readNumber_intText n h)

theorem readValue_float {x : Binary64} (h : x.Canonical) {fuel : Nat} (hf : 0 < fuel)
    {rest : List Char} (ends : Ends rest) :
    readValue fuel (floatText x ++ rest) = some (.float x, rest) := by
  cases x with
  | nan =>
    obtain ⟨fuel, rfl⟩ := Nat.exists_eq_add_of_lt hf
    rfl
  | infinite negative =>
    obtain ⟨fuel, rfl⟩ := Nat.exists_eq_add_of_lt hf
    cases negative <;> rfl
  | finite negative m e =>
    exact readValue_numeral (numeral_finite negative h) hf (readNumber_finite negative h ends)

theorem readValue_text (s : String) {fuel : Nat} (hf : 0 < fuel) (rest : List Char) :
    readValue fuel (stringText s ++ rest) = some (.text s, rest) := by
  obtain ⟨fuel, rfl⟩ := Nat.exists_eq_add_of_lt hf
  obtain ⟨inner, same, read⟩ := readString_stringText s rest
  rw [same, readValue]
  simp only [read]

/-- What stands between items is a comma, and after a name a colon; blanks may follow both. -/
structure Style.Legible (style : Style) : Prop where
  item : ∃ gap, style.item = ',' :: gap ∧ ∀ cs, skipBlanks (gap ++ cs) = skipBlanks cs
  name : ∃ gap, style.name = ':' :: gap ∧ ∀ cs, skipBlanks (gap ++ cs) = skipBlanks cs

theorem legible_compact : compact.Legible := ⟨⟨[], rfl, fun _ => rfl⟩, [], rfl, fun _ => rfl⟩

theorem legible_spaced : spaced.Legible := ⟨⟨[' '], rfl, fun _ => rfl⟩, [' '], rfl, fun _ => rfl⟩

variable {style : Style}

/-- What a value's text starts with is no blank and closes nothing. -/
theorem print_head {v : Value} (h : Faithful v) (style : Style) :
    ∃ c cs, print style v = c :: cs ∧ isBlank c = false ∧ c ≠ ']' := by
  have digit {c : Char} (hc : isDigit c = true) : isBlank c = false ∧ c ≠ ']' := by
    have apart {w : Char} (hw : isDigit w = false) : c ≠ w := (ne_of_isDigit hc hw).symm
    exact ⟨by simp [isBlank, apart (w := ' ') rfl, apart (w := '\t') rfl, apart (w := '\n') rfl,
      apart (w := '\r') rfl], apart rfl⟩
  have numeral {text : List Char} (h : Numeral text) :
      ∃ c cs, text = c :: cs ∧ isBlank c = false ∧ c ≠ ']' := by
    obtain ⟨c, cs, hc, same | same⟩ := h
    · exact ⟨c, cs, same, digit hc⟩
    · exact ⟨'-', c :: cs, same, rfl, by decide⟩
  cases h with
  | null => exact ⟨_, _, rfl, rfl, by decide⟩
  | bool b => cases b <;> exact ⟨_, _, rfl, rfl, by decide⟩
  | int n => exact numeral (numeral_intText n)
  | float x canonical =>
    cases x with
    | nan => exact ⟨_, _, rfl, rfl, by decide⟩
    | infinite negative => cases negative <;> exact ⟨_, _, rfl, rfl, by decide⟩
    | finite negative m e => exact numeral (numeral_finite negative canonical)
  | text s => exact ⟨_, _, rfl, rfl, by decide⟩
  | list items _ => exact ⟨_, _, rfl, rfl, by decide⟩
  | record members _ _ => exact ⟨_, _, rfl, rfl, by decide⟩

theorem skipBlanks_cons {c : Char} (h : isBlank c = false) (cs : List Char) :
    skipBlanks (c :: cs) = c :: cs := by
  simp [skipBlanks, h]

theorem skipBlanks_print {v : Value} (h : Faithful v) (rest : List Char) :
    skipBlanks (print style v ++ rest) = print style v ++ rest := by
  obtain ⟨c, cs, same, blank, -⟩ := print_head h style
  rw [same]
  exact skipBlanks_cons blank _

theorem length_print_pos {v : Value} (h : Faithful v) (style : Style) : 0 < (print style v).length := by
  obtain ⟨c, cs, same, -⟩ := print_head h style
  simp [same]

/-- Text that a value's text can stand in front of. -/
theorem ends_of_head {c : Char} (h : c = ',' ∨ c = ']' ∨ c = '}') (cs : List Char) :
    Ends (c :: cs) := by
  intro d hd
  cases hd
  rcases h with rfl | rfl | rfl <;> decide

theorem ends_nil : Ends [] := by
  intro c hc
  cases hc

/-- Being read back, in every place where a value can stand. -/
def ReadsBack (style : Style) (v : Value) : Prop :=
  ∀ (fuel : Nat) (rest : List Char), (print style v).length ≤ fuel → Ends rest →
    readValue fuel (print style v ++ rest) = some (v, rest)

theorem readItems_print (legible : style.Legible) {items : List Value} (hne : items ≠ [])
    (valid : ∀ v ∈ items, Faithful v) (each : ∀ v ∈ items, ReadsBack style v) (done : List Value)
    (fuel : Nat) (hf : (printItems style items).length < fuel) (rest : List Char) :
    readItems fuel done (printItems style items ++ ']' :: rest) =
      some (.list (done.reverse ++ items), rest) := by
  induction items generalizing done fuel with
  | nil => exact absurd rfl hne
  | cons v tail ih =>
    obtain _ | fuel := fuel
    · exact absurd hf (Nat.not_lt_zero _)
    cases tail with
    | nil =>
      have first := each v (by simp) fuel (']' :: rest) (by simp [printItems] at hf; omega)
        (ends_of_head (by simp) _)
      simp only [printItems, readItems, first, skipBlanks_cons (c := ']') rfl]
      simp
    | cons u more =>
      obtain ⟨gap, comma, blank⟩ := legible.item
      have whole : printItems style (v :: u :: more) =
          print style v ++ ',' :: (gap ++ printItems style (u :: more)) := by
        simp [printItems, comma]
      rw [whole] at hf ⊢
      simp only [List.length_append, List.length_cons] at hf
      have first := each v (by simp) fuel
        (',' :: (gap ++ (printItems style (u :: more) ++ ']' :: rest))) (by omega)
        (ends_of_head (by simp) _)
      have next : skipBlanks (gap ++ (printItems style (u :: more) ++ ']' :: rest)) =
          printItems style (u :: more) ++ ']' :: rest := by
        rw [blank]
        have head := valid u (by simp)
        cases more with
        | nil => exact skipBlanks_print head _
        | cons x xs =>
          rw [printItems, List.append_assoc, List.append_assoc]
          · exact skipBlanks_print head _
          · exact fun h => List.cons_ne_nil _ _ h
      have later := ih (by simp) (fun w hw => valid w (by simp [hw]))
        (fun w hw => each w (by simp [hw])) (v :: done) fuel (by omega)
      rw [List.append_assoc, List.cons_append, List.append_assoc]
      simp only [readItems, first, skipBlanks_cons (c := ',') rfl, next, later]
      simp

theorem put_new {name : String} {v : Value} {entries : Entries}
    (h : ∀ e ∈ entries, e.1.same (.text name) = false) :
    Entries.put (.text name) v entries = entries ++ [(.text name, v)] := by
  induction entries with
  | nil => rfl
  | cons e rest ih =>
    have head := h e (by simp)
    simp [Entries.put, head, ih fun x hx => h x (by simp [hx])]

theorem put_entriesOf {name : String} {v : Value} {done : List (String × Value)}
    (h : name ∉ done.map (·.1)) :
    Entries.put (.text name) v (entriesOf done) = entriesOf (done ++ [(name, v)]) := by
  rw [put_new]
  · simp [entriesOf]
  · intro e he
    simp only [entriesOf, List.mem_map] at he
    obtain ⟨m, hm, rfl⟩ := he
    rw [Key.same_text]
    simp only [decide_eq_false_iff_not]
    rintro rfl
    exact h (List.mem_map_of_mem hm)

theorem readMembers_print (legible : style.Legible) {members : List (String × Value)} (hne : members ≠ [])
    (valid : ∀ m ∈ members, Faithful m.2) (each : ∀ m ∈ members, ReadsBack style m.2)
    (done : List (String × Value)) (once : ((done ++ members).map (·.1)).Nodup) (fuel : Nat)
    (hf : (printEntries style (entriesOf members)).length < fuel) (rest : List Char) :
    readMembers fuel (entriesOf done)
        (printEntries style (entriesOf members) ++ '}' :: rest) =
      some (.map (entriesOf (done ++ members)), rest) := by
  induction members generalizing done fuel with
  | nil => exact absurd rfl hne
  | cons m tail ih =>
    obtain ⟨name, v⟩ := m
    obtain _ | fuel := fuel
    · exact absurd hf (Nat.not_lt_zero _)
    have fresh : name ∉ done.map (·.1) := by
      intro hin
      rw [List.map_append, List.map_cons, List.nodup_append] at once
      exact once.2.2 name hin name (by simp) rfl
    have head := valid (name, v) (by simp)
    obtain ⟨gap, colon, blank⟩ := legible.name
    cases tail with
    | nil =>
      have whole : printEntries style (entriesOf [(name, v)]) ++ '}' :: rest =
          stringText name ++ ':' :: (gap ++ (print style v ++ '}' :: rest)) := by
        simp [entriesOf, printEntries, printEntry, keyText, colon]
      have size : (print style v).length ≤ fuel := by
        simp only [entriesOf, List.map_cons, List.map_nil, printEntries, printEntry,
          List.length_append] at hf
        omega
      obtain ⟨inner, same, read⟩ :=
        readString_stringText name (':' :: (gap ++ (print style v ++ '}' :: rest)))
      have value := each (name, v) (by simp) fuel ('}' :: rest) size (ends_of_head (by simp) _)
      rw [whole, same]
      simp only [readMembers, read, skipBlanks_cons (c := ':') rfl, blank,
        skipBlanks_print head, value, skipBlanks_cons (c := '}') rfl,
        put_entriesOf fresh]
    | cons u more =>
      obtain ⟨room, comma, blank'⟩ := legible.item
      have whole : printEntries style (entriesOf ((name, v) :: u :: more)) =
          stringText name ++ ':' :: (gap ++ (print style v ++
            ',' :: (room ++ printEntries style (entriesOf (u :: more))))) := by
        simp [entriesOf, printEntries, printEntry, keyText, colon, comma]
      rw [whole] at hf ⊢
      simp only [List.length_append, List.length_cons] at hf
      obtain ⟨inner, same, read⟩ := readString_stringText name (':' :: (gap ++ (print style v ++
        ',' :: (room ++ (printEntries style (entriesOf (u :: more)) ++ '}' :: rest)))))
      have size : (print style v).length ≤ fuel := by omega
      have value := each (name, v) (by simp) fuel
        (',' :: (room ++ (printEntries style (entriesOf (u :: more)) ++ '}' :: rest))) size
        (ends_of_head (by simp) _)
      have next : skipBlanks (room ++ (printEntries style (entriesOf (u :: more)) ++ '}' :: rest)) =
          printEntries style (entriesOf (u :: more)) ++ '}' :: rest := by
        rw [blank']
        cases more <;> exact skipBlanks_cons rfl _
      have later := ih (by simp) (fun m hm => valid m (by simp [hm]))
        (fun m hm => each m (by simp [hm])) (done ++ [(name, v)])
        (by simpa using once) fuel (by omega)
      rw [List.append_assoc, List.cons_append, List.append_assoc, List.append_assoc, List.cons_append,
        List.append_assoc, same]
      simp only [readMembers, read, skipBlanks_cons (c := ':') rfl, blank,
        skipBlanks_print head, value, skipBlanks_cons (c := ',') rfl, next,
        put_entriesOf fresh, later]
      simp

theorem readsBack_list (legible : style.Legible) {items : List Value} (valid : ∀ v ∈ items, Faithful v)
    (each : ∀ v ∈ items, ReadsBack style v) : ReadsBack style (.list items) := by
  intro fuel rest hf ends
  rw [print] at hf ⊢
  simp only [List.length_append, List.length_cons, List.length_nil] at hf
  obtain _ | fuel := fuel
  · exact absurd hf (by omega)
  rw [List.append_assoc, List.cons_append, readValue]
  cases items with
  | nil => rfl
  | cons v tail =>
    have head := valid v (by simp)
    obtain ⟨c, cs, same, blank, open?⟩ := print_head head style
    have start : ∃ more, printItems style (v :: tail) ++ (']' :: rest) = c :: more := by
      cases tail <;> simp [printItems, same]
    obtain ⟨more, start⟩ := start
    have items := readItems_print legible (List.cons_ne_nil v tail) valid each [] fuel (by omega) rest
    simp only [List.reverse_nil, List.nil_append] at items
    simp only [List.cons_append, List.nil_append, start] at items ⊢
    rw [skipBlanks_cons blank]
    split
    · next heq => exact absurd (List.cons.inj heq).1 open?
    · exact items

theorem readsBack_record (legible : style.Legible) {members : List (String × Value)}
    (valid : ∀ m ∈ members, Faithful m.2) (each : ∀ m ∈ members, ReadsBack style m.2)
    (once : (members.map (·.1)).Nodup) : ReadsBack style (.record members) := by
  intro fuel rest hf ends
  rw [Value.record, print] at hf ⊢
  simp only [List.length_append, List.length_cons, List.length_nil] at hf
  obtain _ | fuel := fuel
  · exact absurd hf (by omega)
  rw [List.append_assoc, List.cons_append, readValue]
  cases members with
  | nil => rfl
  | cons m tail =>
    have start : ∃ more, printEntries style (entriesOf (m :: tail)) ++ ('}' :: rest) =
        '"' :: more := by
      cases tail <;> exact ⟨_, rfl⟩
    obtain ⟨more, start⟩ := start
    have size : (printEntries style (entriesOf (m :: tail))).length < fuel := by
      unfold entriesOf
      omega
    have members := readMembers_print legible (List.cons_ne_nil m tail) valid each [] once fuel size rest
    simp only [entriesOf, List.map_nil, List.nil_append] at members start
    simp only [List.cons_append, List.nil_append, start] at members ⊢
    rw [skipBlanks_cons rfl]
    exact members

theorem readsBack (legible : style.Legible) {v : Value} (h : Faithful v) : ReadsBack style v := by
  induction h with
  | null =>
    intro fuel rest hf _
    obtain ⟨fuel, rfl⟩ := Nat.exists_eq_add_of_lt
      (show 0 < fuel from Nat.lt_of_lt_of_le (length_print_pos .null style) hf)
    rfl
  | bool b =>
    intro fuel rest hf _
    obtain ⟨fuel, rfl⟩ := Nat.exists_eq_add_of_lt
      (show 0 < fuel from Nat.lt_of_lt_of_le (length_print_pos (.bool b) style) hf)
    cases b <;> rfl
  | int n =>
    intro fuel rest hf ends
    exact readValue_int n (Nat.lt_of_lt_of_le (length_print_pos (.int n) style) hf) ends
  | float x canonical =>
    intro fuel rest hf ends
    exact readValue_float canonical
      (Nat.lt_of_lt_of_le (length_print_pos (.float x canonical) style) hf) ends
  | text s =>
    intro fuel rest hf _
    exact readValue_text s (Nat.lt_of_lt_of_le (length_print_pos (.text s) style) hf) rest
  | list items valid ih => exact readsBack_list legible valid ih
  | record members valid once ih => exact readsBack_record legible valid ih once

/-- Reading gives back what was printed. -/
theorem read?_print (legible : style.Legible) {v : Value} (h : Faithful v) :
    read? (print style v) = some v := by
  have back := readsBack legible h ((print style v).length + 1) [] (by omega) ends_nil
  have start : skipBlanks (print style v ++ []) = print style v ++ [] := skipBlanks_print h []
  rw [List.append_nil] at back start
  simp only [read?, start, back]
  rfl

theorem parse?_render (legible : style.Legible) {v : Value} (h : Faithful v) :
    parse? (render style v) = some v := by
  rw [parse?, render, String.toList_ofList]
  exact read?_print legible h

end LanguageClient.Json
