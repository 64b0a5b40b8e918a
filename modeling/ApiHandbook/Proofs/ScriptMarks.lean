import ApiHandbook.Proofs.Case
import ApiHandbook.Proofs.Replacement
import Mathlib.Data.List.TakeWhile

/-! What a browser takes note of in the text of a script element: starts and ends of comments, and start tags of scripts. -/
namespace ApiHandbook.Page
open Text

/-- What may stand behind the name of a tag. -/
def isTagEnd (c : Char) : Bool :=
  c = '\t' || c = '\n' || c = '\x0c' || c = '\r' || c = ' ' || c = '/' || c = '>'

def scriptName : List Char := ['s', 'c', 'r', 'i', 'p', 't']

/-! ### Letters -/

theorem isAlpha_iff (c : Char) :
    c.isAlpha ↔ 65 ≤ c.toNat ∧ c.toNat ≤ 90 ∨ 97 ≤ c.toNat ∧ c.toNat ≤ 122 := by
  delta Char.isAlpha Char.isUpper Char.isLower
  rw [Bool.or_eq_true, Bool.and_eq_true, decide_eq_true_eq, decide_eq_true_eq, decide_eq_true_eq]
  exact Iff.rfl

theorem isAlpha_toLower {c : Char} (h : c.isAlpha) : c.toLower.isAlpha := by
  rw [isAlpha_iff] at h ⊢
  rw [toNat_toLower]
  split_ifs <;> omega

theorem toLower_toLower (c : Char) : c.toLower.toLower = c.toLower := by
  rw [← Char.toNat_inj, toNat_toLower, toNat_toLower]
  split_ifs <;> omega

theorem not_isAlpha_of_isTagEnd {c : Char} (h : isTagEnd c) : ¬ c.isAlpha := by
  simp only [isTagEnd, Bool.or_eq_true, decide_eq_true_eq] at h
  rcases h with (((((rfl | rfl) | rfl) | rfl) | rfl) | rfl) | rfl <;> decide

theorem isAlpha_of_asciiLower {name : List Char} (h : asciiLower name = scriptName) : ∀ c ∈ name, c.isAlpha := by
  intro c hc
  have hmem : c.toLower ∈ scriptName := h ▸ List.mem_map_of_mem hc
  have hletter : c.toLower.isAlpha := List.all_eq_true.mp (by decide : scriptName.all Char.isAlpha) _ hmem
  rw [isAlpha_iff, toNat_toLower] at hletter
  rw [isAlpha_iff]
  split_ifs at hletter <;> omega

/-! ### Marks -/

/-- What the tokenizer takes note of where no end tag stands. -/
inductive ScriptMark where
  /-- The start of a comment. -/
  | comment
  /-- The end of a comment. -/
  | close
  /-- The start tag of a script. -/
  | script
  deriving DecidableEq, Repr

section
variable (ends : Char → Bool)

/-- Whether a text starts with the name of a script, and a character that ends it. -/
def namesScript (s : List Char) : Bool :=
  asciiLower (s.takeWhile Char.isAlpha) == scriptName && (s.dropWhile Char.isAlpha).head?.any ends

/-- The mark that stands at the start of a text. -/
def mark? : List Char → Option ScriptMark
  | [] => none
  | c :: s =>
    if c = '<' then
      if ['!', '-', '-'] <+: s then some .comment else if namesScript ends s then some .script else none
    else if c = '-' ∧ ['-', '>'] <+: s then some .close
    else none

/-- The marks of a text, in order. -/
def scriptMarks : List Char → List ScriptMark
  | [] => []
  | c :: s => (mark? ends (c :: s)).toList ++ scriptMarks s

end

/-- How deep the tokenizer stands: outside comments, in a comment, or behind the start tag of a script in a comment. -/
inductive Depth where
  | plain
  | escaped
  | doubled
  deriving DecidableEq, Repr

def Depth.next : Depth → ScriptMark → Depth
  | .plain, .comment => .escaped
  | .escaped, .script => .doubled
  | .escaped, .close => .plain
  | .doubled, .close => .plain
  | depth, _ => depth

section
variable {ends : Char → Bool} {c : Char} {s : List Char}

theorem scriptMarks_cons_of_none (h : mark? ends (c :: s) = none) : scriptMarks ends (c :: s) = scriptMarks ends s := by
  rw [scriptMarks, h]
  rfl

theorem mark?_of_ne (hless : c ≠ '<') (hdash : c ≠ '-') (s : List Char) : mark? ends (c :: s) = none := by
  rw [mark?, if_neg hless, if_neg fun h => hdash h.1]

theorem mark?_lessThan_of_ne (h : c ≠ '!') (s : List Char) :
    mark? ends ('<' :: c :: s) = if namesScript ends (c :: s) then some .script else none := by
  rw [mark?, if_pos rfl, if_neg fun hp => h (List.cons_prefix_cons.mp hp).1.symm]

theorem mark?_dash_of_ne (h : c ≠ '-') (s : List Char) : mark? ends ('-' :: c :: s) = none := by
  rw [mark?, if_neg (by decide), if_neg fun hp => h (List.cons_prefix_cons.mp hp.2).1.symm]

theorem scriptMarks_of_ne (hless : c ≠ '<') (hdash : c ≠ '-') (s : List Char) :
    scriptMarks ends (c :: s) = scriptMarks ends s := scriptMarks_cons_of_none (mark?_of_ne hless hdash s)

/-- Whether no mark starts with a character. -/
def startsNone (c : Char) : Bool := c != '<' && c != '-'

theorem startsNone_iff : startsNone c ↔ c ≠ '<' ∧ c ≠ '-' := by
  rw [startsNone, Bool.and_eq_true, bne_iff_ne, bne_iff_ne]

theorem startsNone_of_isAlpha (h : c.isAlpha) : startsNone c := by
  rw [startsNone_iff]
  constructor <;> rintro rfl <;> exact absurd h (by decide)

theorem scriptMarks_append_of_all {t : List Char} (h : t.all startsNone) (s : List Char) :
    scriptMarks ends (t ++ s) = scriptMarks ends s := by
  induction t with
  | nil => rfl
  | cons c t ih =>
    rw [List.all_cons, Bool.and_eq_true, startsNone_iff] at h
    rw [List.cons_append, scriptMarks_of_ne h.1.1 h.1.2, ih h.2]

/-- The marks behind a run of dashes: the last two belong to the end of a comment if that follows. -/
theorem scriptMarks_dashes (hc : c ≠ '-') (dashes : Nat) (s : List Char) :
    scriptMarks ends (List.replicate dashes '-' ++ c :: s) =
      (if c = '>' ∧ 2 ≤ dashes then [ScriptMark.close] else []) ++ scriptMarks ends (c :: s) := by
  induction dashes with
  | zero => simp
  | succ dashes ih =>
    match dashes with
    | 0 =>
      rw [List.replicate_one, List.singleton_append, scriptMarks_cons_of_none (mark?_dash_of_ne hc s)]
      simp
    | 1 =>
      have hmark : mark? ends ('-' :: '-' :: c :: s) = if c = '>' then some .close else none := by
        simp [mark?, List.cons_prefix_cons, eq_comm]
      rw [List.replicate_succ, List.cons_append, scriptMarks, ih]
      simp only [List.replicate_one, List.singleton_append, hmark]
      split <;> simp_all
    | dashes + 2 =>
      have hmark : mark? ends ('-' :: (List.replicate (dashes + 2) '-' ++ c :: s)) = none := by
        simp [mark?, List.replicate_succ, List.cons_prefix_cons]
      rw [List.replicate_succ, List.cons_append, scriptMarks_cons_of_none hmark, ih]
      simp

theorem namesScript_append {name : List Char} (hname : ∀ c ∈ name, c.isAlpha) (s : List Char) :
    namesScript ends (name ++ s) = (asciiLower name ++ asciiLower (s.takeWhile Char.isAlpha) == scriptName &&
      (s.dropWhile Char.isAlpha).head?.any ends) := by
  rw [namesScript, List.takeWhile_append_of_pos hname, List.dropWhile_append_of_pos hname, asciiLower, asciiLower,
    asciiLower, List.map_append]

theorem namesScript_append_cons {name : List Char} (hname : ∀ c ∈ name, c.isAlpha) (hc : ¬ c.isAlpha) (s : List Char) :
    namesScript ends (name ++ c :: s) = (asciiLower name == scriptName && ends c) := by
  rw [namesScript_append hname, List.takeWhile_cons_of_neg hc, List.dropWhile_cons_of_neg hc]
  simp [asciiLower]

theorem exists_letters_append (s : List Char) :
    (∀ c ∈ s, c.isAlpha) ∨ ∃ name c rest, s = name ++ c :: rest ∧ (∀ c ∈ name, c.isAlpha) ∧ ¬ c.isAlpha := by
  induction s with
  | nil => exact .inl (by simp)
  | cons d s ih =>
    by_cases hd : d.isAlpha
    · rcases ih with hs | ⟨name, c, rest, rfl, hname, hc⟩
      · exact .inl (List.forall_mem_cons.mpr ⟨hd, hs⟩)
      · exact .inr ⟨d :: name, c, rest, rfl, List.forall_mem_cons.mpr ⟨hd, hname⟩, hc⟩
    · exact .inr ⟨[], d, s, rfl, by simp, hd⟩

/-- Whether a character may stand in a mark behind its first one. -/
def isInner (c : Char) : Bool := c.isAlpha || c = '!' || c = '-' || c = '>'

theorem prefix_append_iff_of_inner {key p u : List Char} (hkey : ∀ c ∈ key, isInner c) (hu : ∀ c ∈ u.head?, ¬ isInner c) :
    key <+: p ++ u ↔ key <+: p := by
  cases u with
  | nil => rw [List.append_nil]
  | cons d u => exact prefix_append_cons_iff (fun h => hu d rfl (hkey d h)) p u

theorem namesScript_append_of_head {u : List Char} (hu : ∀ c ∈ u.head?, ¬ isInner c) {p : List Char}
    (hp : ∀ c ∈ p, c.isAlpha) : namesScript ends (p ++ u) = (asciiLower p == scriptName && u.head?.any ends) := by
  cases u with
  | nil =>
    rw [namesScript_append hp]
    simp [asciiLower]
  | cons d u => exact namesScript_append_cons hp (fun hd => hu d rfl (by simp [isInner, hd])) u

/-- Whether a mark starts depends on the characters up to the first one that stands in no mark. -/
theorem mark?_append_congr {ends' : Char → Bool} {p u u' : List Char} (hp : ∀ c ∈ p, isInner c)
    (hu : ∀ c ∈ u.head?, ¬ isInner c) (hu' : ∀ c ∈ u'.head?, ¬ isInner c) (hends : ∀ c, isInner c → ends c = ends' c)
    (hhead : u.head?.any ends = u'.head?.any ends') (c : Char) :
    mark? ends (c :: (p ++ u)) = mark? ends' (c :: (p ++ u')) := by
  have hcomment : ∀ c ∈ ['!', '-', '-'], isInner c := by simp [isInner]
  have hclose : ∀ c ∈ ['-', '>'], isInner c := by simp [isInner]
  have hscript : namesScript ends (p ++ u) = namesScript ends' (p ++ u') := by
    rcases exists_letters_append p with hletters | ⟨name, d, rest, rfl, hname, hd⟩
    · rw [namesScript_append_of_head hu hletters, namesScript_append_of_head hu' hletters, hhead]
    · rw [List.append_assoc, List.append_assoc, List.cons_append, List.cons_append, namesScript_append_cons hname hd,
        namesScript_append_cons hname hd, hends d (hp d (by simp))]
  simp only [mark?, prefix_append_iff_of_inner hcomment hu, prefix_append_iff_of_inner hcomment hu',
    prefix_append_iff_of_inner hclose hu, prefix_append_iff_of_inner hclose hu', hscript]

/-- Every text starts with characters of marks, up to its end or to another character. -/
theorem exists_inner_append (s : List Char) :
    ∃ p u, s = p ++ u ∧ (∀ c ∈ p, isInner c) ∧ ∀ c ∈ u.head?, ¬ isInner c :=
  ⟨_, _, List.takeWhile_append_dropWhile.symm, fun _ => List.mem_takeWhile_imp, fun c hc => by
    simpa [Option.mem_def.mp hc] using List.head?_dropWhile_not isInner s⟩

/-- Whether a character stands in no mark. -/
structure Separates (ends : Char → Bool) (c : Char) : Prop where
  ne : c ≠ '<'
  inner : ¬ isInner c
  ends : ends c = false

theorem Separates.ne_dash (hc : Separates ends c) : c ≠ '-' := by
  rintro rfl
  exact hc.inner rfl

theorem mark?_append_separator (hc : Separates ends c) (d : Char) (s t : List Char) :
    mark? ends (d :: (s ++ c :: t)) = mark? ends (d :: s) := by
  obtain ⟨p, u, rfl, hp, hu⟩ := exists_inner_append s
  rw [List.append_assoc]
  cases u with
  | nil => exact mark?_append_congr hp (by simpa using hc.inner) hu (fun _ _ => rfl) (by simp [hc.ends]) d
  | cons e u => exact mark?_append_congr (u := e :: u ++ c :: t) hp hu hu (fun _ _ => rfl) rfl d

theorem scriptMarks_append_cons (hc : Separates ends c) (s t : List Char) :
    scriptMarks ends (s ++ c :: t) = scriptMarks ends s ++ scriptMarks ends t := by
  induction s with
  | nil => exact scriptMarks_of_ne hc.ne hc.ne_dash t
  | cons d s ih => rw [List.cons_append, scriptMarks, mark?_append_separator hc, ih, ← List.append_assoc, ← scriptMarks]

/-! ### Where marks stand -/

theorem exists_split_cons_iff (P : Char → List Char → Prop) (d : Char) (s : List Char) :
    (∃ before c t, d :: s = before ++ c :: t ∧ P c t) ↔ P d s ∨ ∃ before c t, s = before ++ c :: t ∧ P c t := by
  constructor
  · rintro ⟨before, c, t, hs, h⟩
    cases before with
    | nil =>
      obtain ⟨rfl, rfl⟩ := List.cons.inj hs
      exact .inl h
    | cons e before => exact .inr ⟨before, c, t, (List.cons.inj hs).2, h⟩
  · rintro (h | ⟨before, c, t, rfl, h⟩)
    · exact ⟨[], d, s, rfl, h⟩
    · exact ⟨d :: before, c, t, rfl, h⟩

theorem mem_scriptMarks_iff (m : ScriptMark) (s : List Char) :
    m ∈ scriptMarks ends s ↔ ∃ before c t, s = before ++ c :: t ∧ mark? ends (c :: t) = some m := by
  induction s with
  | nil => simp [scriptMarks]
  | cons d s ih => rw [exists_split_cons_iff, scriptMarks, List.mem_append, Option.mem_toList, ih]

theorem pair_sublist_scriptMarks_iff (m m' : ScriptMark) (s : List Char) : [m, m'].Sublist (scriptMarks ends s) ↔
    ∃ before c t, s = before ++ c :: t ∧ mark? ends (c :: t) = some m ∧ m' ∈ scriptMarks ends t := by
  induction s with
  | nil => simp [scriptMarks]
  | cons d s ih =>
    rw [exists_split_cons_iff, ← ih, scriptMarks]
    cases mark? ends (d :: s) with
    | none => simp
    | some first =>
      rw [Option.toList_some, List.singleton_append, List.sublist_cons_iff]
      simp [or_comm, eq_comm, and_assoc]

theorem mark?_eq_comment_iff : mark? ends (c :: s) = some .comment ↔ c = '<' ∧ ['!', '-', '-'] <+: s := by
  rw [mark?]
  split_ifs <;> simp_all

theorem script_mem_of_ne (hless : c ≠ '<') (h : .script ∈ scriptMarks ends (c :: s)) : .script ∈ scriptMarks ends s := by
  rw [scriptMarks, mark?, if_neg hless, List.mem_append] at h
  refine h.resolve_left fun hmark => ?_
  split_ifs at hmark <;> simp at hmark

theorem namesScript_iff (s : List Char) : namesScript isTagEnd s = true ↔
    ∃ name d rest, s = name ++ d :: rest ∧ asciiLower name = scriptName ∧ isTagEnd d := by
  constructor
  · intro h
    rcases exists_letters_append s with hs | ⟨name, d, rest, rfl, hname, hd⟩
    · rw [← List.append_nil s, namesScript_append hs] at h
      simp at h
    · rw [namesScript_append_cons hname hd, Bool.and_eq_true, beq_iff_eq] at h
      exact ⟨name, d, rest, rfl, h⟩
  · rintro ⟨name, d, rest, rfl, hname, hd⟩
    rw [namesScript_append_cons (isAlpha_of_asciiLower hname) (not_isAlpha_of_isTagEnd hd), hname, hd]
    rfl

theorem mark?_eq_script_iff : mark? isTagEnd (c :: s) = some .script ↔
    ∃ name d rest, c :: s = '<' :: (name ++ d :: rest) ∧ asciiLower name = scriptName ∧ isTagEnd d := by
  have hletter (name : List Char) (d : Char) (rest : List Char) (h : asciiLower name = scriptName) :
      ¬ ['!', '-', '-'] <+: name ++ d :: rest := by
    intro hp
    cases name with
    | nil => cases h
    | cons e name =>
      obtain ⟨rfl, -⟩ := List.cons_prefix_cons.mp hp
      cases h
  rw [mark?]
  split_ifs with hless hcomment hname hclose
  · simp only [Option.some.injEq, reduceCtorEq, false_iff]
    rintro ⟨name, d, rest, hs, h, -⟩
    exact hletter name d rest h ((List.cons.inj hs).2 ▸ hcomment)
  · obtain ⟨name, d, rest, rfl, h⟩ := (namesScript_iff s).mp hname
    exact iff_of_true rfl ⟨name, d, rest, by rw [hless], h⟩
  · simp only [false_iff]
    rintro ⟨name, d, rest, hs, h⟩
    exact hname ((namesScript_iff s).mpr ⟨name, d, rest, (List.cons.inj hs).2, h⟩)
  all_goals
    simp only [Option.some.injEq, reduceCtorEq, false_iff]
    rintro ⟨_, _, _, hs, -⟩
    exact hless (List.cons.inj hs).1

/-- Whether the start tag of a script stands behind the start of a comment. -/
def NestsScript (s : List Char) : Prop :=
  ∃ before between name c rest, s = before ++ ['<', '!', '-', '-'] ++ between ++ '<' :: (name ++ c :: rest) ∧
    asciiLower name = scriptName ∧ isTagEnd c

theorem nestsScript_iff (s : List Char) : NestsScript s ↔ [.comment, .script].Sublist (scriptMarks isTagEnd s) := by
  rw [pair_sublist_scriptMarks_iff]
  constructor
  · rintro ⟨before, between, name, c, rest, rfl, h⟩
    refine ⟨before, '<', '!' :: '-' :: '-' :: (between ++ '<' :: (name ++ c :: rest)), by simp, ?_, ?_⟩
    · exact mark?_eq_comment_iff.mpr ⟨rfl, _, rfl⟩
    · exact (mem_scriptMarks_iff _ _).mpr ⟨'!' :: '-' :: '-' :: between, '<', name ++ c :: rest, rfl,
        mark?_eq_script_iff.mpr ⟨name, c, rest, rfl, h⟩⟩
  · rintro ⟨before, c, t, rfl, hcomment, hscript⟩
    obtain ⟨rfl, t, rfl⟩ := mark?_eq_comment_iff.mp hcomment
    have hbehind : .script ∈ scriptMarks isTagEnd t :=
      script_mem_of_ne (by decide) (script_mem_of_ne (by decide) (script_mem_of_ne (by decide) hscript))
    obtain ⟨between, d, u, rfl, hmark⟩ := (mem_scriptMarks_iff _ _).mp hbehind
    obtain ⟨name, c, rest, hname, h⟩ := mark?_eq_script_iff.mp hmark
    exact ⟨before, between, name, c, rest, by simp [hname], h⟩

end

theorem script_of_doubled (marks : List ScriptMark) :
    (marks.foldl Depth.next .escaped = .doubled → .script ∈ marks) ∧
      (marks.foldl Depth.next .plain = .doubled → [.comment, .script].Sublist marks) := by
  induction marks with
  | nil => exact ⟨nofun, nofun⟩
  | cons m marks ih =>
    obtain ⟨hescaped, hplain⟩ := ih
    cases m with
    | comment =>
      exact ⟨fun h => .tail _ (hescaped h), fun h => (List.singleton_sublist.mpr (hescaped h)).cons_cons _⟩
    | close => exact ⟨fun h => .tail _ ((hplain h).subset (by simp)), fun h => .cons _ (hplain h)⟩
    | script => exact ⟨fun _ => .head _, fun h => .cons _ (hplain h)⟩

end ApiHandbook.Page
