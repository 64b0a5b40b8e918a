import ApiHandbook.Markdown.Document
import ApiHandbook.Proofs.Lines
import Mathlib.Data.List.TakeWhile

/-! Reading a markdown text line by line with the fenced block that is open, and what a fence around a text and the
demotion of a block's headings do to such a reading. -/
namespace ApiHandbook.Markdown
open Text

/-- The block that is open after a line. -/
def fenceAfter (opened : Option Fence) (line : List Char) : Option Fence :=
  match Fence.ofLine? (trimStart line) with
  | some f => afterFence opened f
  | none => opened

def openAfter (opened : Option Fence) (ls : List (List Char)) : Option Fence := ls.foldl fenceAfter opened

theorem openAfter_append (opened : Option Fence) (ls more : List (List Char)) :
    openAfter opened (ls ++ more) = openAfter (openAfter opened ls) more := List.foldl_append

def tick : Char := Char.ofNat 0x60

/-- What stands for a fence: backticks or tildes, at least three. -/
structure Fence.Valid (f : Fence) : Prop where
  char_eq : f.char = tick ∨ f.char = '~'
  three_le : 3 ≤ f.length

theorem takeWhile_beq (c : Char) (s : List Char) :
    s.takeWhile (· == c) = List.replicate (s.takeWhile (· == c)).length c :=
  List.eq_replicate_iff.mpr ⟨rfl, fun _ hd => eq_of_beq (List.mem_takeWhile_imp (p := (· == c)) hd)⟩

theorem takeWhile_replicate_append {c : Char} {rest : List Char} (h : rest.head? ≠ some c) (n : Nat) :
    (List.replicate n c ++ rest).takeWhile (· == c) = List.replicate n c := by
  have hall : ∀ d ∈ List.replicate n c, (d == c) = true := fun d hd => beq_iff_eq.mpr (List.eq_of_mem_replicate hd)
  rw [List.takeWhile_append_of_pos hall]
  cases rest with
  | nil => rw [List.takeWhile_nil, List.append_nil]
  | cons d rest => rw [List.takeWhile_cons_of_neg (by simpa using h), List.append_nil]

/-- A fence is read from its text, whatever other character follows. -/
theorem ofLine?_text_append {f : Fence} (hf : f.Valid) {rest : List Char} (hr : rest.head? ≠ some f.char) :
    Fence.ofLine? (f.text ++ rest) = some f := by
  have ht : (f.text ++ rest).takeWhile (· == f.char) = f.text := takeWhile_replicate_append hr f.length
  obtain ⟨n, hn⟩ : ∃ n, f.length = n + 1 := ⟨f.length - 1, by have := hf.three_le; omega⟩
  have hc : f.text ++ rest = f.char :: (List.replicate n f.char ++ rest) := by
    rw [Fence.text, hn, List.replicate_succ, List.cons_append]
  have hv : (f.char.toNat == 0x60 || f.char == '~') = true := by
    rcases hf.char_eq with h | h <;> simp [h, tick]
  have hlen : f.text.length = f.length := List.length_replicate
  rw [hc, Fence.ofLine?]
  simp only [← hc, ht, hv, hlen, hf.three_le, decide_true, Bool.and_self, if_true]

/-- A line starts with the longest run of its first character, if that is the character of fences and the run is long
enough. -/
theorem ofLine?_eq_some_iff {line : List Char} {f : Fence} :
    Fence.ofLine? line = some f ↔ f.Valid ∧ ∃ rest, line = f.text ++ rest ∧ rest.head? ≠ some f.char := by
  constructor
  · intro h
    cases line with
    | nil => cases h
    | cons c rest =>
      simp only [Fence.ofLine?, Option.ite_none_right_eq_some, Option.some.injEq, Bool.and_eq_true, Bool.or_eq_true,
        beq_iff_eq, decide_eq_true_eq] at h
      obtain ⟨⟨hc, hl⟩, rfl⟩ := h
      refine ⟨⟨hc.imp_left fun h => Char.toNat_inj.mp h, hl⟩, (c :: rest).dropWhile (· == c), ?_, fun hhead => ?_⟩
      · rw [Fence.text, ← takeWhile_beq, List.takeWhile_append_dropWhile]
      · have hother := List.head?_dropWhile_not (· == c) (c :: rest)
        rw [hhead] at hother
        simp at hother
  · rintro ⟨hf, rest, rfl, hr⟩
    exact ofLine?_text_append hf hr

theorem ofLine?_eq_some {line : List Char} {f : Fence} (h : Fence.ofLine? line = some f) :
    f.Valid ∧ f.text <+: line := by
  obtain ⟨hf, rest, rfl, -⟩ := ofLine?_eq_some_iff.mp h
  exact ⟨hf, List.prefix_append f.text rest⟩

theorem ofLine?_of_notMem {line : List Char} (h : ∀ c ∈ line.head?, c ≠ tick ∧ c ≠ '~') : Fence.ofLine? line = none := by
  cases line with
  | nil => rfl
  | cons c rest =>
    obtain ⟨ht, hw⟩ := h c (by simp)
    have hn : (c.toNat == 0x60) = false := beq_eq_false_iff_ne.mpr fun he => ht (Char.toNat_inj.mp he)
    simp [Fence.ofLine?, hn, hw]

/-- A carriage return at the end of a line belongs to no fence. -/
theorem ofLine?_concat_return (line : List Char) : Fence.ofLine? (line ++ ['\r']) = Fence.ofLine? line := by
  cases line with
  | nil => rfl
  | cons c rest =>
    by_cases hc : c = '\r'
    · subst hc
      rw [ofLine?_of_notMem (by simp [tick]), ofLine?_of_notMem (by simp [tick])]
    · have ht : (c :: rest ++ ['\r']).takeWhile (· == c) = (c :: rest).takeWhile (· == c) := by
        rw [List.takeWhile_append]
        split
        · rename_i hl
          rw [List.takeWhile_cons_of_neg (by simpa using Ne.symm hc), List.append_nil]
          exact ((List.takeWhile_prefix _).eq_of_length hl).symm
        · rfl
      rw [List.cons_append] at ht ⊢
      simp only [Fence.ofLine?, ht]

theorem trimStart_concat_return (line : List Char) :
    trimStart (line ++ ['\r']) = if trimStart line = [] then [] else trimStart line ++ ['\r'] := by
  have hr : trimStart ['\r'] = [] := by decide
  rw [trimStart, List.dropWhile_append, ← trimStart, ← trimStart, hr]
  cases trimStart line <;> rfl

theorem ofLine?_dropReturn (line : List Char) :
    Fence.ofLine? (trimStart (dropReturn line)) = Fence.ofLine? (trimStart line) := by
  rcases dropReturn_cases line with ⟨h, _⟩ | h
  · rw [h]
  · conv => rhs; rw [h, trimStart_concat_return]
    split
    · rename_i hn
      rw [hn]
    · rw [ofLine?_concat_return]

theorem fenceAfter_dropReturn (opened : Option Fence) (line : List Char) :
    fenceAfter opened (dropReturn line) = fenceAfter opened line := by
  rw [fenceAfter, fenceAfter, ofLine?_dropReturn]

theorem openAfter_map_dropReturn (opened : Option Fence) (ls : List (List Char)) :
    openAfter opened (ls.map dropReturn) = openAfter opened ls := by
  rw [openAfter, List.foldl_map]
  simp only [fenceAfter_dropReturn]
  rfl

theorem length_le_of_prefix (p : Char → Bool) {run s : List Char} (hp : ∀ c ∈ run, p c = false) (h : run <+: s) :
    ∀ first rest, s.splitOnP p = first :: rest → run.length ≤ first.length := by
  induction s generalizing run with
  | nil =>
    obtain rfl := List.prefix_nil.mp h
    simp
  | cons c s ih =>
    intro first rest hs
    cases run with
    | nil => exact Nat.zero_le _
    | cons d run =>
      obtain ⟨rfl, hrun⟩ := List.cons_prefix_cons.mp h
      obtain ⟨f, r, hf⟩ := List.exists_cons_of_ne_nil (List.splitOnP_ne_nil p s)
      rw [List.splitOnP_cons_eq_if_modifyHead, if_neg (by simpa using hp d (by simp)), hf] at hs
      obtain ⟨rfl, rfl⟩ := List.cons.inj hs
      exact Nat.succ_le_succ (ih (fun e he => hp e (by simp [he])) hrun f r hf)

/-- A run of characters that separate nothing lies in one of the pieces. -/
theorem exists_length_le_of_infix (p : Char → Bool) {run s : List Char} (hp : ∀ c ∈ run, p c = false)
    (h : run <:+: s) : ∃ piece ∈ s.splitOnP p, run.length ≤ piece.length := by
  induction s with
  | nil =>
    obtain rfl := List.infix_nil.mp h
    exact ⟨[], by simp, by simp⟩
  | cons c s ih =>
    rcases List.infix_cons_iff.mp h with h | h
    · obtain ⟨f, r, hf⟩ := List.exists_cons_of_ne_nil (List.splitOnP_ne_nil p (c :: s))
      exact ⟨f, by simp [hf], length_le_of_prefix p hp h f r hf⟩
    · obtain ⟨piece, hm, hl⟩ := ih h
      rw [List.splitOnP_cons_eq_if_modifyHead]
      split
      · exact ⟨piece, by simp [hm], hl⟩
      · obtain ⟨f, r, hf⟩ := List.exists_cons_of_ne_nil (List.splitOnP_ne_nil p s)
        rw [hf] at hm ⊢
        rcases List.mem_cons.mp hm with rfl | hm
        · exact ⟨c :: piece, by simp, Nat.le_succ_of_le hl⟩
        · exact ⟨piece, by simp [hm], hl⟩

/-- The fence that is put around a text. -/
def docFence (content : List Char) : Fence := ⟨tick, (fenceAround content).length⟩

theorem text_docFence (content : List Char) : (docFence content).text = fenceAround content := by
  simp [docFence, Fence.text, fenceAround, tick]

theorem docFence_valid (content : List Char) : (docFence content).Valid where
  char_eq := .inl rfl
  three_le := by
    simp only [docFence, fenceAround, List.length_replicate]
    omega

/-- No run of backticks in a text is as long as the fence around it. -/
theorem length_lt_docFence {n : Nat} {content : List Char} (h : List.replicate n tick <:+: content) :
    n < (docFence content).length := by
  obtain ⟨piece, hm, hl⟩ := exists_length_le_of_infix (fun c => c.toNat != 0x60)
    (fun c hc => by rw [List.eq_of_mem_replicate hc]; decide) h
  rw [List.length_replicate] at hl
  simp only [docFence, fenceAround, List.length_replicate]
  have hmem : piece.length ∈ (content.splitOnP fun c => c.toNat != 0x60).map List.length := List.mem_map_of_mem hm
  obtain ⟨most, hmost⟩ := Option.isSome_iff_exists.mp (List.isSome_max?_of_mem hmem)
  have hle := (List.max?_eq_some_iff.mp hmost).2 _ hmem
  rw [hmost, Option.getD_some]
  omega

/-- The lines of a text leave the block open that the fence around the text opens. -/
theorem openAfter_docFence (content : List Char) :
    ∀ line ∈ content.splitOn '\n', fenceAfter (some (docFence content)) line = some (docFence content) := by
  intro line hline
  rw [fenceAfter]
  cases hf : Fence.ofLine? (trimStart line) with
  | none => rfl
  | some f =>
    obtain ⟨-, hp⟩ := ofLine?_eq_some hf
    have hi : f.text <:+: content := by
      have hj := infix_joinLines hline
      rw [joinLines, List.intercalate_splitOn] at hj
      exact (hp.isInfix.trans (List.dropWhile_suffix _).isInfix).trans hj
    have hc : f.closes (docFence content) = false := by
      rw [Fence.closes, Bool.and_eq_false_iff, decide_eq_false_iff_not]
      by_cases hch : f.char = tick
      · rw [Fence.text, hch] at hi
        have := length_lt_docFence hi
        exact .inr (by omega)
      · exact .inl (beq_eq_false_iff_ne.mpr hch)
    simp [afterFence, hc]

theorem trimStart_of_head {s : List Char} (h : ∀ c ∈ s.head?, isBlank c = false) : trimStart s = s := by
  cases s with
  | nil => rfl
  | cons c s => exact List.dropWhile_cons_of_neg (by simp [h c rfl])

theorem ofLine?_trimStart_text {f : Fence} (hf : f.Valid) {rest : List Char} (hr : rest.head? ≠ some f.char) :
    Fence.ofLine? (trimStart (f.text ++ rest)) = some f := by
  have ht : trimStart (f.text ++ rest) = f.text ++ rest := by
    refine trimStart_of_head fun c hc => ?_
    obtain ⟨n, hn⟩ : ∃ n, f.length = n + 1 := ⟨f.length - 1, by have := hf.three_le; omega⟩
    rw [Fence.text, hn, List.replicate_succ, List.cons_append, List.head?_cons, Option.mem_some_iff] at hc
    subst hc
    rcases hf.char_eq with h | h <;> rw [h] <;> decide
  rw [ht, ofLine?_text_append hf hr]

theorem fenceAfter_text_append {f : Fence} (hf : f.Valid) (opened : Option Fence) {rest : List Char}
    (hr : rest.head? ≠ some f.char) : fenceAfter opened (f.text ++ rest) = afterFence opened f := by
  rw [fenceAfter, ofLine?_trimStart_text hf hr]

theorem fenceAfter_text {f : Fence} (hf : f.Valid) : fenceAfter (some f) f.text = none := by
  have h := @fenceAfter_text_append f hf (some f) [] (by simp)
  rw [List.append_nil] at h
  simpa [afterFence, Fence.closes] using h

theorem valid_of_fenceAfter {opened : Option Fence} {line : List Char} {f : Fence} (h : ∀ o ∈ opened, o.Valid)
    (hf : fenceAfter opened line = some f) : f.Valid := by
  rw [fenceAfter] at hf
  split at hf
  · rename_i g hg
    have hv := (ofLine?_eq_some hg).1
    cases opened with
    | none =>
      obtain rfl := Option.some.inj hf
      exact hv
    | some o =>
      rw [afterFence] at hf
      split at hf
      · cases hf
      · obtain rfl := Option.some.inj hf
        exact h o rfl
  · exact h f hf

theorem valid_of_openAfter {opened : Option Fence} {ls : List (List Char)} (h : ∀ o ∈ opened, o.Valid) :
    ∀ f ∈ openAfter opened ls, f.Valid := by
  induction ls generalizing opened with
  | nil => exact h
  | cons line ls ih => exact ih fun o ho => valid_of_fenceAfter h ho

end ApiHandbook.Markdown
