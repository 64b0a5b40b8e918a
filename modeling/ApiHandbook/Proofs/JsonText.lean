import ApiHandbook.Data.Json
import Mathlib.Tactic.SplitIfs

/-! JSON texts. What is written is read back, whatever characters the strings hold. -/
namespace ApiHandbook.Json

/-- A value without numbers, whose strings are all texts: what the documentation writes. -/
inductive Textual : Json → Prop where
  | null : Textual .null
  | bool (value : Bool) : Textual (.bool value)
  | string (text : String) : Textual (.string text)
  | array {items : List Json} (h : ∀ item ∈ items, Textual item) : Textual (.array items)
  | object {fields : List (String × Json)} (h : ∀ field ∈ fields, Textual field.2) : Textual (.object fields)

/-! ### Strings -/

theorem unit?_hexUnit {n : Nat} (h : n < 32) :
    ∃ a b c d, hexUnit n = [a, b, c, d] ∧ unit? a b c d = some n := by
  have hall : ∀ n < 32, (hexUnit n).length = 4 ∧
      unit? ((hexUnit n).getD 0 'x') ((hexUnit n).getD 1 'x') ((hexUnit n).getD 2 'x') ((hexUnit n).getD 3 'x') = some n := by
    decide
  obtain ⟨hlength, hunit⟩ := hall n h
  match he : hexUnit n, hlength with
  | [a, b, c, d], _ =>
    rw [he] at hunit
    exact ⟨a, b, c, d, rfl, hunit⟩

theorem readText_escape {e c : Char} (h : simpleEscape? e = some c) (pending : Option Nat) (rest : List Char) :
    readText pending ('\\' :: e :: rest) = emit (unlessPending pending c) (readText none rest) := by
  have hu : e ≠ 'u' := by
    rintro rfl
    cases h
  rw [readText, h]
  simp [hu]

theorem readText_plain {c : Char} (hquote : c ≠ '"') (hescape : c ≠ '\\') (hcontrol : ¬ c.toNat < 32)
    (pending : Option Nat) (rest : List Char) :
    readText pending (c :: rest) = emit (unlessPending pending c) (readText none rest) := by
  rw [readText, if_neg (by simp [hcontrol, hescape])]
  · exact hquote
  · simp [hescape]
  · simp [hescape]

/-- A written character is read as itself. -/
theorem readText_writeChar (c : Char) (rest : List Char) :
    readText none (writeChar c ++ rest) = emit (some c) (readText none rest) := by
  rw [writeChar]
  split_ifs with h1 h2 h3 h4 h5 h6 h7 h8
  · subst h1
    exact readText_escape rfl none rest
  · subst h2
    exact readText_escape rfl none rest
  · subst h3
    exact readText_escape rfl none rest
  · subst h4
    exact readText_escape rfl none rest
  · subst h5
    exact readText_escape rfl none rest
  · subst h6
    exact readText_escape rfl none rest
  · subst h7
    exact readText_escape rfl none rest
  · obtain ⟨x, y, z, w, hunit, hvalue⟩ := unit?_hexUnit h8
    have hhigh : isHighSurrogate c.toNat = false := by
      simp [isHighSurrogate]
      omega
    have hlow : isLowSurrogate c.toNat = false := by
      simp [isLowSurrogate]
      omega
    rw [hunit]
    simp [readText, hvalue, hhigh, hlow, Char.ofNat_toNat]
  · exact readText_plain h1 h2 h8 none rest

theorem readText_flatMap_writeChar (s rest : List Char) :
    readText none (s.flatMap writeChar ++ '"' :: rest) = some (some s, rest) := by
  induction s with
  | nil => rfl
  | cons c s ih =>
    rw [List.flatMap_cons, List.append_assoc, readText_writeChar, ih]
    rfl

/-! ### Values -/

theorem skipSpace_cons {c : Char} (h : isSpace c = false) (s : List Char) : skipSpace (c :: s) = c :: s :=
  List.dropWhile_cons_of_neg (by simp [h])

/-- How a written value starts. -/
structure Starts (s : List Char) (c : Char) (t : List Char) : Prop where
  eq : s = c :: t
  space : isSpace c = false
  close : c ≠ ']'

theorem Textual.starts {j : Json} (h : Textual j) : ∃ c t, Starts j.write c t := by
  cases h with
  | null => exact ⟨_, _, rfl, by decide, by decide⟩
  | bool value => cases value <;> exact ⟨_, _, rfl, by decide, by decide⟩
  | string text => exact ⟨_, _, rfl, by decide, by decide⟩
  | array h => rename_i items; cases items <;> exact ⟨_, _, rfl, by decide, by decide⟩
  | object h => rename_i fields; cases fields <;> exact ⟨_, _, rfl, by decide, by decide⟩

theorem Textual.skipSpace_write {j : Json} (h : Textual j) (s : List Char) : skipSpace (j.write ++ s) = j.write ++ s := by
  obtain ⟨c, t, hstart⟩ := h.starts
  rw [hstart.eq, List.cons_append, skipSpace_cons hstart.space]

/-- Whether a value is read back from its text, whatever follows, as soon as there is fuel for every character. -/
def Reads (j : Json) : Prop := ∀ fuel s, j.write.length ≤ fuel → readValue fuel (j.write ++ s) = some (j, s)

theorem reads_string (text : String) : Reads (.string text) := by
  intro fuel s hfuel
  cases fuel with
  | zero => simp [write, writeText] at hfuel
  | succ fuel =>
    simp only [write, writeText, List.cons_append, List.append_assoc, List.nil_append, readValue,
      readText_flatMap_writeChar, Option.map_some, String.ofList_toList]

theorem readItems_write {items : List Json} (h : ∀ item ∈ items, Textual item ∧ Reads item) {item : Json}
    (hitem : Reads item) (fuel : Nat) (s : List Char)
    (hfuel : item.write.length + (writeItems items).length ≤ fuel) :
    readItems fuel (item.write ++ writeItems items ++ s) = some (item :: items, s) := by
  induction items generalizing item fuel with
  | nil =>
    cases fuel with
    | zero => simp [writeItems] at hfuel
    | succ fuel =>
      rw [readItems, List.append_assoc, hitem fuel _ (by simp [writeItems] at hfuel; omega)]
      rfl
  | cons next items ih =>
    obtain ⟨hnext, hreads⟩ := h next List.mem_cons_self
    cases fuel with
    | zero => simp [writeItems] at hfuel
    | succ fuel =>
      have hlength : item.write.length + (next.write.length + (writeItems items).length + 1) ≤ fuel + 1 := by
        simpa [writeItems] using hfuel
      have hrest := ih (fun i hi => h i (List.mem_cons_of_mem _ hi)) hreads fuel (by omega)
      rw [readItems, List.append_assoc, hitem fuel _ (by omega)]
      simp only [writeItems, List.cons_append, Option.bind_eq_bind, Option.bind_some]
      rw [skipSpace_cons (by decide)]
      simp only
      rw [List.append_assoc, hnext.skipSpace_write, ← List.append_assoc, hrest]
      rfl

/-- What reading gives for written fields. -/
def readKeys (fields : List (String × Json)) : List (Option (List Char) × Json) :=
  fields.map fun (key, value) => (some key.toList, value)

theorem ofFields_readKeys (fields : List (String × Json)) : ofFields (readKeys fields) = .object fields := by
  have hall : (readKeys fields).all (fun field => field.1.isSome) = true := by simp [readKeys]
  rw [ofFields, if_pos hall]
  simp [readKeys, Function.comp_def]

/-- The text of a field, from its opening quote. -/
def writeField (key : String) (value : Json) : List Char := writeText key.toList ++ ':' :: value.write

theorem writeFields_cons (key : String) (value : Json) (fields : List (String × Json)) :
    writeFields ((key, value) :: fields) = ',' :: (writeField key value ++ writeFields fields) := by
  simp [writeFields, writeField, writeText]

theorem skipSpace_writeField (key : String) (value : Json) (s : List Char) :
    skipSpace (writeField key value ++ s) = writeField key value ++ s := rfl

/-- Reads what stands behind a field: the end of the object, or further fields. -/
def readMore (fuel : Nat) (field : Option (List Char) × Json) :
    List Char → Option (List (Option (List Char) × Json) × List Char)
  | '\x7d' :: rest => some ([field], rest)
  | ',' :: rest => (readFields fuel (skipSpace rest)).bind fun (fields, rest) => some (field :: fields, rest)
  | _ => none

theorem readFields_writeField {value : Json} (ht : Textual value) (hr : Reads value) (key : String) {fuel : Nat}
    (hfuel : value.write.length ≤ fuel) (s : List Char) :
    readFields (fuel + 1) (writeField key value ++ s) = readMore fuel (some key.toList, value) (skipSpace s) := by
  simp only [writeField, writeText, List.cons_append, List.append_assoc, List.nil_append, readFields,
    readText_flatMap_writeChar, Option.bind_eq_bind, Option.bind_some]
  rw [skipSpace_cons (by decide)]
  simp only
  rw [ht.skipSpace_write, hr fuel s hfuel, Option.bind_some]
  rfl

theorem readFields_write {fields : List (String × Json)} (h : ∀ field ∈ fields, Textual field.2 ∧ Reads field.2)
    {value : Json} (hvalue : Textual value ∧ Reads value) (key : String) (fuel : Nat) (s : List Char)
    (hfuel : (writeField key value).length + (writeFields fields).length ≤ fuel) :
    readFields fuel (writeField key value ++ writeFields fields ++ s) = some (readKeys ((key, value) :: fields), s) := by
  have hlength : value.write.length + 3 ≤ (writeField key value).length := by simp [writeField, writeText]
  obtain ⟨fuel, rfl⟩ : ∃ less, fuel = less + 1 := ⟨fuel - 1, by omega⟩
  rw [List.append_assoc, readFields_writeField hvalue.1 hvalue.2 key (by omega)]
  cases fields with
  | nil =>
    rw [writeFields, List.cons_append, skipSpace_cons (by decide)]
    rfl
  | cons next fields =>
    obtain ⟨nextKey, nextValue⟩ := next
    have hnext : nextValue.Textual ∧ nextValue.Reads := h _ List.mem_cons_self
    rw [writeFields_cons, List.length_cons, List.length_append] at hfuel
    have hrest := readFields_write (fun f hf => h f (List.mem_cons_of_mem _ hf)) hnext nextKey fuel s (by omega)
    rw [writeFields_cons, List.cons_append, skipSpace_cons (by decide), readMore, List.append_assoc,
      skipSpace_writeField, ← List.append_assoc, hrest]
    rfl

theorem reads_array {items : List Json} (h : ∀ item ∈ items, Textual item ∧ Reads item) : Reads (.array items) := by
  intro fuel s hfuel
  obtain ⟨fuel, rfl⟩ : ∃ less, fuel = less + 1 := by
    cases items <;> exact ⟨fuel - 1, by simp [write] at hfuel; omega⟩
  cases items with
  | nil => rfl
  | cons item items =>
    obtain ⟨hitem, hreads⟩ := h item List.mem_cons_self
    have hlength : item.write.length + (writeItems items).length ≤ fuel := by
      simp [write] at hfuel
      omega
    have hrest := readItems_write (fun i hi => h i (List.mem_cons_of_mem _ hi)) hreads fuel s hlength
    obtain ⟨c, t, hstart⟩ := hitem.starts
    rw [write, List.cons_append, List.cons_append, readValue, List.append_assoc, hitem.skipSpace_write,
      ← List.append_assoc]
    split
    · rename_i hclose
      rw [hstart.eq] at hclose
      exact absurd (List.cons.inj hclose).1 hstart.close
    · rw [hrest]
      rfl

theorem reads_object {fields : List (String × Json)} (h : ∀ field ∈ fields, Textual field.2 ∧ Reads field.2) :
    Reads (.object fields) := by
  intro fuel s hfuel
  obtain ⟨fuel, rfl⟩ : ∃ less, fuel = less + 1 := by
    cases fields <;> exact ⟨fuel - 1, by simp [write] at hfuel; omega⟩
  cases fields with
  | nil => rfl
  | cons field fields =>
    obtain ⟨key, value⟩ := field
    have htext : write (.object ((key, value) :: fields)) = '{' :: (writeField key value ++ writeFields fields) := by
      simp [write, writeField, writeText]
    rw [htext, List.length_cons, List.length_append] at hfuel
    have hvalue : value.Textual ∧ value.Reads := h _ List.mem_cons_self
    have hrest := readFields_write (fun f hf => h f (List.mem_cons_of_mem _ hf)) hvalue key fuel s (by omega)
    rw [htext, List.cons_append, readValue, List.append_assoc, skipSpace_writeField, ← List.append_assoc]
    split
    · rename_i hclose
      exact absurd (List.cons.inj hclose).1 (by decide)
    · rw [hrest, Option.map_some]
      exact congrArg (fun j => some (j, s)) (ofFields_readKeys _)

theorem reads_of_textual {j : Json} (h : Textual j) : Reads j := by
  induction h with
  | null =>
    intro fuel s hfuel
    obtain ⟨fuel, rfl⟩ : ∃ less, fuel = less + 1 := ⟨fuel - 1, by simp [write] at hfuel; omega⟩
    rfl
  | bool value =>
    intro fuel s hfuel
    obtain ⟨fuel, rfl⟩ : ∃ less, fuel = less + 1 := by
      cases value <;> exact ⟨fuel - 1, by simp [write] at hfuel; omega⟩
    cases value <;> rfl
  | string text => exact reads_string text
  | array h ih => exact reads_array fun item hi => ⟨h item hi, ih item hi⟩
  | object h ih => exact reads_object fun field hf => ⟨h field hf, ih field hf⟩

/-- A written value is read back. -/
theorem read?_write {j : Json} (h : Textual j) : read? j.write = some j := by
  have hskip := h.skipSpace_write []
  have hread := reads_of_textual h (j.write.length + 1) [] (Nat.le_succ _)
  rw [List.append_nil] at hskip hread
  rw [read?, hskip, hread]
  rfl

end ApiHandbook.Json
