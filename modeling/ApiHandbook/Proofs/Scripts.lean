import ApiHandbook.Data.Json
import ApiHandbook.Proofs.Lines
import Mathlib.Data.List.Basic

/-! String literals of scripts. What stands between double quotes is read to the code units of its value, with every
escape that a script may use. An escape is always longer than what it stands for, so that a text with backslashes is
never its own value. -/
namespace ApiHandbook.Script

/-- The code units of a code point. -/
def units (n : Nat) : List Nat :=
  if n < 0x10000 then [n] else [0xD800 + (n - 0x10000) / 0x400, 0xDC00 + (n - 0x10000) % 0x400]

/-- The code units of a text. -/
def utf16 (s : List Char) : List Nat := s.flatMap fun c => units c.toNat

def isLineEnd (c : Char) : Bool := c == '\n' || c == '\r' || c == '\u2028' || c == '\u2029'

/-- The number that hexadecimal digits write; there must be one at least. -/
def hexNumber? (digits : List Char) : Option Nat :=
  if digits.isEmpty then none else digits.foldlM (fun n d => (Json.hexValue? d).map (n * 16 + ·)) 0

def isOctalDigit (c : Char) : Bool := '0' ≤ c && c ≤ '7'

def octalNumber (digits : List Char) : Nat := digits.foldl (fun n d => n * 8 + (d.toNat - '0'.toNat)) 0

/-- The octal digits that an escape takes: three at most, and two if the first one is above three. -/
def octalDigits (s : List Char) : List Char :=
  (s.takeWhile isOctalDigit).take (if s.head?.any ('3' < ·) then 2 else 3)

/-- The code point of a character behind a backslash that starts no longer escape. -/
def escaped (c : Char) : Nat :=
  match c with
  | 'b' => 8
  | 't' => 9
  | 'n' => 10
  | 'v' => 11
  | 'f' => 12
  | 'r' => 13
  | c => c.toNat

/-- What an escape stands for, and how many characters it takes behind its backslash. -/
def escape? : List Char → Option (List Nat × Nat)
  | [] => none
  | 'x' :: rest =>
    if 2 ≤ rest.length then (hexNumber? (rest.take 2)).map fun n => ([n], 3) else none
  | 'u' :: '\x7b' :: rest =>
    let digits := rest.takeWhile (· != '\x7d')
    if digits.length < rest.length then
      (hexNumber? digits).bind fun n => if n ≤ 0x10FFFF then some (units n, digits.length + 3) else none
    else none
  | 'u' :: rest =>
    if 4 ≤ rest.length then (hexNumber? (rest.take 4)).map fun n => ([n], 5) else none
  | '\r' :: '\n' :: _ => some ([], 2)
  | c :: rest =>
    if isLineEnd c then some ([], 1)
    else if isOctalDigit c then some ([octalNumber (octalDigits (c :: rest))], (octalDigits (c :: rest)).length)
    else some (units (escaped c), 1)

/-- Reads a literal up to its closing quote, after passing over `skip` characters of an escape; nothing is read when the
literal is not well formed. -/
def read? : Nat → List Char → Option (List Nat)
  | _, [] => none
  | skip + 1, _ :: rest => read? skip rest
  | 0, '"' :: _ => some []
  | 0, '\\' :: rest => (escape? rest).bind fun (value, length) => (read? length rest).map (value ++ ·)
  | 0, c :: rest => if c = '\n' ∨ c = '\r' then none else (read? 0 rest).map (units c.toNat ++ ·)

/-- The value of the literal whose opening quote stands in front of the text. -/
def string? (s : List Char) : Option (List Nat) := read? 0 s

example : string? "\\x41\\u0042\\103\\n\\/\";".toList = some [65, 66, 67, 10, 47] := by decide

/-! ### Code units -/

theorem length_units_pos (n : Nat) : 0 < (units n).length := by
  rw [units]
  split <;> exact Nat.succ_pos _

theorem count_units {n : Nat} (h : n < 0xD800) (m : Nat) : (units m).count n = if m = n then 1 else 0 := by
  rw [units]
  split
  · simp [List.count_singleton]
  · have hhigh : 0xD800 + (m - 0x10000) / 0x400 ≠ n := by omega
    have hlow : 0xDC00 + (m - 0x10000) % 0x400 ≠ n := by omega
    have hne : m ≠ n := by omega
    simp [hhigh, hlow, hne]

theorem count_units_char {d : Char} (h : d.toNat < 0xD800) (c : Char) :
    (units c.toNat).count d.toNat = [c].count d := by
  rw [count_units h, List.count_singleton]
  simp only [Char.toNat_inj, beq_iff_eq]

theorem count_units_backslash (c : Char) : (units c.toNat).count 92 = [c].count '\\' :=
  count_units_char (d := '\\') (by decide) c

theorem count_cons_eq (d c : Char) (s : List Char) : (c :: s).count d = [c].count d + s.count d := by
  rw [← List.count_append, List.singleton_append]

theorem utf16_cons (c : Char) (s : List Char) : utf16 (c :: s) = units c.toNat ++ utf16 s := List.flatMap_cons

theorem utf16_append (s t : List Char) : utf16 (s ++ t) = utf16 s ++ utf16 t := List.flatMap_append

theorem count_utf16 {d : Char} (h : d.toNat < 0xD800) (s : List Char) : (utf16 s).count d.toNat = s.count d := by
  induction s with
  | nil => rfl
  | cons c s ih => rw [utf16_cons, List.count_append, count_units_char h, ih, count_cons_eq d c s]

theorem length_le_length_utf16 (s : List Char) : s.length ≤ (utf16 s).length := by
  induction s with
  | nil => exact Nat.zero_le _
  | cons c s ih =>
    have := length_units_pos c.toNat
    rw [utf16_cons, List.length_append, List.length_cons]
    omega

/-! ### Escapes -/

/-- Characters by which no escape writes a code point. -/
def marks : List Char := ['"', '\\', '/', ';', '?']

/-- What holds of an escape that takes some characters behind its backslash. It gives one backslash at most; if it gives
one without taking one, it writes its code point. -/
structure Escapes (taken : List Char) (value : List Nat) : Prop where
  ne_nil : taken ≠ []
  quote : '"' ∈ taken → taken = ['"']
  count_le : value.count 92 ≤ 1
  code : value.count 92 = 1 → '\\' ∉ taken → value.length = 1 ∧ ∀ c ∈ taken, c ∉ marks

theorem notMem_marks_of_hexValue? {c : Char} {n : Nat} (h : Json.hexValue? c = some n) : c ∉ marks := by
  have hnone : ∀ d ∈ marks, Json.hexValue? d = none := Text.forall_mem_of_all (by decide)
  intro hc
  rw [hnone c hc] at h
  cases h

theorem notMem_marks_of_isOctalDigit {c : Char} (h : isOctalDigit c = true) : c ∉ marks := by
  have hfalse : ∀ d ∈ marks, isOctalDigit d = false := Text.forall_mem_of_all (by decide)
  intro hc
  rw [hfalse c hc] at h
  cases h

theorem notMem_marks_of_hexNumber? {digits : List Char} {n : Nat} (h : hexNumber? digits = some n) :
    ∀ c ∈ digits, c ∉ marks := by
  have hfold (m : Nat) (digits : List Char)
      (hm : digits.foldlM (fun n d => (Json.hexValue? d).map (n * 16 + ·)) m = some n) : ∀ c ∈ digits, c ∉ marks := by
    induction digits generalizing m with
    | nil => simp
    | cons d digits ih =>
      rw [List.foldlM_cons] at hm
      obtain ⟨next, hnext, hrest⟩ := Option.bind_eq_some_iff.mp hm
      obtain ⟨v, hv, -⟩ := Option.map_eq_some_iff.mp hnext
      exact List.forall_mem_cons.mpr ⟨notMem_marks_of_hexValue? hv, ih next hrest⟩
  rw [hexNumber?] at h
  split at h
  · cases h
  · exact hfold 0 digits h

/-- An escape that writes the code point of one unit. -/
theorem Escapes.of_code {taken : List Char} (hne : taken ≠ []) (h : ∀ c ∈ taken, c ∉ marks) {value : List Nat}
    (hcount : value.count 92 ≤ 1) (hlength : value.count 92 = 1 → value.length = 1) : Escapes taken value where
  ne_nil := hne
  quote hq := absurd (by decide) (h _ hq)
  count_le := hcount
  code hone _ := ⟨hlength hone, h⟩

theorem count_singleton_le (n : Nat) : [n].count 92 ≤ 1 := List.count_le_length

theorem count_units_le (n : Nat) : (units n).count 92 ≤ 1 := by
  rw [count_units (by decide)]
  split <;> decide

theorem length_units_of_count {n : Nat} (h : (units n).count 92 = 1) : (units n).length = 1 := by
  rw [count_units (by decide)] at h
  split at h
  · subst n
    rfl
  · cases h

theorem exists_takeWhile_append {p : Char → Bool} {s : List Char} (h : (s.takeWhile p).length < s.length) :
    ∃ c rest, s = s.takeWhile p ++ c :: rest ∧ p c = false := by
  induction s with
  | nil => cases h
  | cons d s ih =>
    by_cases hd : p d = true
    · rw [List.takeWhile_cons_of_pos hd] at h ⊢
      obtain ⟨c, rest, hs, hc⟩ := ih (by simpa using h)
      exact ⟨c, rest, congrArg (d :: ·) hs, hc⟩
    · rw [List.takeWhile_cons_of_neg hd]
      exact ⟨d, s, rfl, by simpa using hd⟩

/-- An escape that takes one character, and stands for one code point or for nothing. -/
theorem Escapes.of_one {c : Char} {value : List Nat} (hcount : value.count 92 ≤ 1)
    (hcode : value.count 92 = 1 → c = '\\') : Escapes [c] value where
  ne_nil := List.cons_ne_nil _ _
  quote hq := by rw [List.mem_singleton.mp hq]
  count_le := hcount
  code hone hc := absurd (by simp [hcode hone]) hc

theorem escaped_eq_backslash {c : Char} (h : escaped c = 92) : c = '\\' := by
  unfold escaped at h
  split at h <;> first | exact Char.toNat_inj.mp h | cases h

theorem octalDigits_spec {c : Char} (hc : isOctalDigit c = true) (rest : List Char) :
    octalDigits (c :: rest) ≠ [] ∧ octalDigits (c :: rest) <+: c :: rest ∧
      ∀ d ∈ octalDigits (c :: rest), d ∉ marks := by
  refine ⟨?_, (List.take_prefix _ _).trans (List.takeWhile_prefix _), fun d hd => ?_⟩
  · rw [octalDigits, List.takeWhile_cons_of_pos hc]
    split <;> exact List.cons_ne_nil _ _
  · exact notMem_marks_of_isOctalDigit (List.all_eq_true.mp List.all_takeWhile d (List.mem_of_mem_take hd))

/-- An escape by a fixed number of hexadecimal digits. -/
theorem spec_of_digits {c : Char} (hc : c ∉ marks) {rest : List Char} {count n : Nat} (hlength : count ≤ rest.length)
    (h : hexNumber? (rest.take count) = some n) :
    count + 1 ≤ (c :: rest).length ∧ Escapes ((c :: rest).take (count + 1)) [n] := by
  refine ⟨Nat.succ_le_succ hlength, .of_code (List.cons_ne_nil _ _) ?_ (count_singleton_le n) fun _ => rfl⟩
  exact List.forall_mem_cons.mpr ⟨hc, notMem_marks_of_hexNumber? h⟩

/-- An escape by hexadecimal digits between braces. -/
theorem spec_of_braces {rest : List Char} {n : Nat}
    (hclosed : (rest.takeWhile (· != '\x7d')).length < rest.length)
    (h : hexNumber? (rest.takeWhile (· != '\x7d')) = some n) :
    (rest.takeWhile (· != '\x7d')).length + 3 ≤ ('u' :: '\x7b' :: rest).length ∧
      Escapes (('u' :: '\x7b' :: rest).take ((rest.takeWhile (· != '\x7d')).length + 3)) (units n) := by
  obtain ⟨c, after, hrest, hc⟩ := exists_takeWhile_append hclosed
  obtain rfl : c = '\x7d' := by simpa using hc
  generalize rest.takeWhile (· != '\x7d') = digits at h hrest ⊢
  subst hrest
  have htake : ('u' :: '\x7b' :: (digits ++ '\x7d' :: after)).take (digits.length + 3) =
      'u' :: '\x7b' :: (digits ++ ['\x7d']) := by
    simp [List.take_append, List.take_of_length_le]
  rw [htake]
  refine ⟨by simp, .of_code (List.cons_ne_nil _ _) ?_ (count_units_le n) length_units_of_count⟩
  have hdigits := notMem_marks_of_hexNumber? h
  simp only [List.forall_mem_cons, List.forall_mem_append]
  exact ⟨by decide, by decide, hdigits, by decide, nofun⟩

theorem spec_of_octal {c : Char} (hc : isOctalDigit c = true) (rest : List Char) (n : Nat) :
    (octalDigits (c :: rest)).length ≤ (c :: rest).length ∧
      Escapes ((c :: rest).take (octalDigits (c :: rest)).length) [n] := by
  obtain ⟨hne, hstart, hmarks⟩ := octalDigits_spec hc rest
  rw [← List.prefix_iff_eq_take.mp hstart]
  exact ⟨hstart.length_le, .of_code hne hmarks (count_singleton_le _) fun _ => rfl⟩

/-- An escape by one character, which gives a backslash only if it is one. -/
theorem escapes_escaped (c : Char) : Escapes [c] (units (escaped c)) := by
  refine .of_one (count_units_le _) fun hone => ?_
  rw [count_units (by decide)] at hone
  split at hone
  · exact escaped_eq_backslash ‹_›
  · cases hone

theorem escape?_spec {s : List Char} {value : List Nat} {length : Nat} (h : escape? s = some (value, length)) :
    length ≤ s.length ∧ Escapes (s.take length) value := by
  unfold escape? at h
  split at h
  · cases h
  · obtain ⟨hlength, h⟩ := Option.ite_none_right_eq_some.mp h
    obtain ⟨n, hn, hvalue⟩ := Option.map_eq_some_iff.mp h
    cases hvalue
    exact spec_of_digits (by decide) hlength hn
  · obtain ⟨hclosed, h⟩ := Option.ite_none_right_eq_some.mp h
    obtain ⟨n, hn, h⟩ := Option.bind_eq_some_iff.mp h
    obtain ⟨-, h⟩ := Option.ite_none_right_eq_some.mp h
    cases h
    exact spec_of_braces hclosed hn
  · obtain ⟨hlength, h⟩ := Option.ite_none_right_eq_some.mp h
    obtain ⟨n, hn, hvalue⟩ := Option.map_eq_some_iff.mp h
    cases hvalue
    exact spec_of_digits (by decide) hlength hn
  · cases h
    refine ⟨by simp, .of_code (List.cons_ne_nil _ _) ?_ (Nat.zero_le _) fun hone => nomatch hone⟩
    exact List.forall_mem_cons.mpr ⟨by decide, List.forall_mem_cons.mpr ⟨by decide, nofun⟩⟩
  · rename_i c rest _ _ _ _
    split_ifs at h with _ hoctal
    · cases h
      exact ⟨by simp, .of_one (Nat.zero_le _) fun hone => nomatch hone⟩
    · cases h
      exact spec_of_octal hoctal rest _
    · cases h
      exact ⟨by simp, escapes_escaped c⟩

theorem pos_of_escape? {s : List Char} {value : List Nat} {length : Nat} (h : escape? s = some (value, length)) :
    0 < length := by
  have htaken := List.length_pos_iff.mpr (escape?_spec h).2.ne_nil
  rw [List.length_take] at htaken
  omega

/-! ### Literals -/

/-- The inside of a literal and its value, element by element. -/
inductive Literal : List Char → List Nat → Prop where
  | nil : Literal [] []
  | plain {c : Char} {s : List Char} {value : List Nat} (h : c ∉ ['"', '\\', '\n', '\r']) (rest : Literal s value) :
    Literal (c :: s) (units c.toNat ++ value)
  | escape {taken s : List Char} {one value : List Nat} (h : Escapes taken one) (rest : Literal s value) :
    Literal ('\\' :: (taken ++ s)) (one ++ value)

theorem read?_eq_drop (skip : Nat) (s : List Char) : read? skip s = read? 0 (s.drop skip) := by
  induction s generalizing skip with
  | nil => cases skip <;> rfl
  | cons c s ih =>
    cases skip with
    | zero => rfl
    | succ skip => rw [read?, ih, List.drop_succ_cons]

theorem read?_backslash (s : List Char) : read? 0 ('\\' :: s) =
    (escape? s).bind fun (value, length) => (read? length s).map (value ++ ·) := rfl

theorem read?_plain {c : Char} (h : c ∉ ['"', '\\', '\n', '\r']) (s : List Char) :
    read? 0 (c :: s) = (read? 0 s).map (units c.toNat ++ ·) := by
  simp only [List.mem_cons, List.not_mem_nil, or_false, not_or] at h
  rw [read?, if_neg (by simp [h])]
  · exact h.1
  · exact h.2.1

/-- An escape does not reach over the closing quote of a literal that does not end with a backslash. -/
theorem length_le_of_escape? {s rest : List Char} {value : List Nat} {length : Nat} (hquote : '"' ∉ s) (hne : s ≠ [])
    (h : escape? (s ++ '"' :: rest) = some (value, length)) : length ≤ s.length := by
  obtain ⟨c, s, rfl⟩ := List.exists_cons_of_ne_nil hne
  by_contra hlong
  have htake : ((c :: s) ++ '"' :: rest).take length = c :: (s ++ ('"' :: rest).take (length - (s.length + 1))) := by
    rw [List.take_append, List.take_of_length_le (by omega), List.cons_append, List.length_cons]
  have hmem : '"' ∈ ((c :: s) ++ '"' :: rest).take length := by
    obtain ⟨k, hk⟩ : ∃ k, length - (s.length + 1) = k + 1 := by
      rw [List.length_cons] at hlong
      exact ⟨length - (s.length + 1) - 1, by omega⟩
    rw [htake, hk]
    simp
  have hone := (escape?_spec h).2.quote hmem
  rw [htake] at hone
  exact hquote (by rw [(List.cons.inj hone).1]; exact List.mem_cons_self)

theorem getLast?_ne_of_suffix {s t : List Char} (h : s <:+ t) {c : Char} (hlast : t.getLast? ≠ some c) :
    s.getLast? ≠ some c := by
  obtain ⟨front, rfl⟩ := h
  intro hs
  rw [List.getLast?_append, hs] at hlast
  exact hlast rfl

/-- Line breaks are not read. -/
theorem plain_of_read? {c : Char} {s : List Char} {value : List Nat} (h : read? 0 (c :: s) = some value)
    (hquote : c ≠ '"') (hbackslash : c ≠ '\\') : c ∉ ['"', '\\', '\n', '\r'] := by
  intro hmem
  simp only [List.mem_cons, List.not_mem_nil, or_false] at hmem
  rcases hmem with rfl | rfl | rfl | rfl
  · exact hquote rfl
  · exact hbackslash rfl
  · cases h
  · cases h

/-- What is read up to the closing quote is a literal. -/
theorem literal_of_read? {s rest : List Char} {value : List Nat} (hread : read? 0 (s ++ '"' :: rest) = some value)
    (hquote : '"' ∉ s) (hlast : s.getLast? ≠ some '\\') : Literal s value := by
  match s with
  | [] =>
    cases hread
    exact .nil
  | c :: s =>
    rw [List.mem_cons, not_or] at hquote
    by_cases hc : c = '\\'
    · subst hc
      rw [List.cons_append, read?_backslash] at hread
      obtain ⟨⟨one, length⟩, hescape, hmap⟩ := Option.bind_eq_some_iff.mp hread
      obtain ⟨more, hmore, rfl⟩ := Option.map_eq_some_iff.mp hmap
      have hne : s ≠ [] := by
        rintro rfl
        exact hlast rfl
      have hlength := length_le_of_escape? hquote.2 hne hescape
      have hpos := pos_of_escape? hescape
      have hspec := (escape?_spec hescape).2
      rw [List.take_append_of_le_length hlength] at hspec
      rw [read?_eq_drop, List.drop_append_of_le_length hlength] at hmore
      have hrest : s.drop length <:+ '\\' :: s := (List.drop_suffix _ _).trans (List.suffix_cons _ _)
      have hliteral := literal_of_read? hmore (fun h => hquote.2 (List.mem_of_mem_drop h)) (getLast?_ne_of_suffix hrest hlast)
      have hescaped := Literal.escape hspec hliteral
      rwa [List.take_append_drop] at hescaped
    · have hplain := plain_of_read? hread (Ne.symm hquote.1) hc
      rw [List.cons_append, read?_plain hplain] at hread
      obtain ⟨more, hmore, rfl⟩ := Option.map_eq_some_iff.mp hread
      exact .plain hplain (literal_of_read? hmore hquote.2 (getLast?_ne_of_suffix (List.suffix_cons c s) hlast))
termination_by s.length
decreasing_by all_goals simp only [List.length_cons, List.length_drop]; omega

/-- A text without quotes, backslashes and line breaks is its own value. -/
theorem read?_of_plain {s : List Char} (h : ∀ c ∈ s, c ∉ ['"', '\\', '\n', '\r']) (rest : List Char) :
    read? 0 (s ++ '"' :: rest) = some (utf16 s) := by
  induction s with
  | nil => rfl
  | cons c s ih =>
    obtain ⟨hc, hs⟩ := List.forall_mem_cons.mp h
    rw [List.cons_append, read?_plain hc, ih hs]
    rfl

namespace Literal

/-- No escape gives more backslashes than it takes. -/
theorem count_backslash_le {s : List Char} {value : List Nat} (h : Literal s value) :
    value.count 92 ≤ s.count '\\' := by
  induction h with
  | nil => exact Nat.zero_le _
  | @plain c s value hc rest ih =>
    have hunits := count_units_backslash c
    rw [List.count_append, hunits, count_cons_eq _ c s]
    exact Nat.add_le_add_left ih _
  | @escape taken s one value hone rest ih =>
    have hle := hone.count_le
    simp only [List.count_append, List.count_cons_self]
    omega

/-- A literal with as many backslashes in it as in its value keeps the other marks, and every backslash makes it longer
than its value. -/
theorem exact_of_count_backslash {s : List Char} {value : List Nat} (h : Literal s value)
    (heq : value.count 92 = s.count '\\') :
    (∀ d ∈ marks, value.count d.toNat = s.count d) ∧ value.length + s.count '\\' ≤ (utf16 s).length := by
  have hsmall : ∀ d ∈ marks, d.toNat < 0xD800 := Text.forall_mem_of_all (by decide)
  induction h with
  | nil => exact ⟨fun _ _ => rfl, Nat.le_refl 0⟩
  | @plain c s value hc rest ih =>
    have hunits := count_units_backslash c
    have hcount : [c].count '\\' = 0 := by
      rw [List.count_eq_zero, List.mem_singleton]
      rintro rfl
      exact hc (by decide)
    rw [List.count_append, hunits, count_cons_eq _ c s] at heq
    obtain ⟨hmarks, hlength⟩ := ih (by omega)
    refine ⟨fun d hd => ?_, ?_⟩
    · rw [List.count_append, count_units_char (hsmall d hd), hmarks d hd, count_cons_eq d c s]
    · rw [count_cons_eq _ c s, hcount, utf16_cons, List.length_append, List.length_append]
      omega
  | @escape taken s one value hone rest ih =>
    have hle := hone.count_le
    have hrest := rest.count_backslash_le
    simp only [List.count_append, List.count_cons_self] at heq
    obtain ⟨hlengthOne, htaken⟩ := hone.code (by omega) (List.count_eq_zero.mp (by omega))
    obtain ⟨n, rfl⟩ := List.length_eq_one_iff.mp hlengthOne
    obtain rfl : n = 92 := by
      by_contra hn
      rw [List.count_eq_zero.mpr (by simpa using Ne.symm hn)] at heq
      omega
    obtain ⟨hmarks, hlength⟩ := ih (by omega)
    refine ⟨fun d hd => ?_, ?_⟩
    · have hone : [92].count d.toNat = ['\\'].count d := count_units_char (hsmall d hd) '\\'
      have hnone : taken.count d = 0 := List.count_eq_zero.mpr fun hmem => htaken d hmem hd
      rw [List.count_append, hone, hmarks d hd, count_cons_eq d '\\' (taken ++ s), List.count_append,
        hnone, Nat.zero_add]
    · have htakenLength := List.length_pos_iff.mpr hone.ne_nil
      have hunits := length_le_length_utf16 taken
      have hbackslash := length_units_pos '\\'.toNat
      simp only [utf16_cons, utf16_append, List.length_append, List.length_singleton, List.count_append,
        List.count_cons_self]
      omega

/-- Without backslashes there is no line break in a literal either. -/
theorem plain_of_notMem {s : List Char} {value : List Nat} (h : Literal s value) (hs : '\\' ∉ s) :
    ∀ c ∈ s, c ∉ ['"', '\\', '\n', '\r'] := by
  induction h with
  | nil => exact nofun
  | plain hc rest ih => exact List.forall_mem_cons.mpr ⟨hc, ih fun hmem => hs (List.mem_cons_of_mem _ hmem)⟩
  | escape => exact absurd List.mem_cons_self hs

end Literal

end ApiHandbook.Script
