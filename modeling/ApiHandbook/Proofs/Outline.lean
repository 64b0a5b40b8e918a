import ApiHandbook.Proofs.Aggregation
import ApiHandbook.Proofs.Headings

/-! The outline that is read back from the documentation as one text. -/
namespace ApiHandbook.Markdown
open Text

/-- A heading of the outline; an entry has the words of its two lists. -/
inductive OutlineLine where
  | title (text : List Char)
  | group (text : List Char)
  | entry (name : List Char) (urls methods : List (List Char))
  deriving DecidableEq

/-- The list items before the first mark of some kinds. -/
def itemsBefore (stop : Mark → Bool) : List Mark → List (List Char)
  | [] => []
  | .item word :: rest => if stop (.item word) then [] else word :: itemsBefore stop rest
  | m :: rest => if stop m then [] else itemsBefore stop rest

def endsMethods (m : Mark) : Bool := m = .fence

def endsUrls (m : Mark) : Bool := m = .methodLabel || m = .fence

/-- What a heading with the marks after it adds to the outline. The lists of an entry end at the first fence. -/
def outlineOf (level : Nat) (text : List Char) (following : List Mark) : List OutlineLine :=
  if level ≤ 1 then [.title text]
  else if level = 2 then [.group text]
  else if level = 3 then
    [.entry text (itemsBefore endsUrls following)
      (itemsBefore endsMethods (following.dropWhile fun m => !endsUrls m))]
  else []

def outline : List Mark → List OutlineLine
  | [] => []
  | .heading level text :: rest => outlineOf level text rest ++ outline rest
  | _ :: rest => outline rest

/-- The outline of a text that is read line by line. -/
def readOutline (s : List Char) : List OutlineLine := outline (marks none (lines s))

theorem length_outline (ms : List Mark) : (outline ms).length = ms.countP Mark.shallow := by
  induction ms with
  | nil => rfl
  | cons m ms ih =>
    cases m with
    | heading level text =>
      rw [outline, List.length_append, ih, List.countP_cons, Nat.add_comm]
      congr 1
      by_cases h : level ≤ 3
      · have hs : (Mark.heading level text).shallow = true := decide_eq_true h
        rw [hs, if_pos rfl, outlineOf]
        split_ifs <;> first | rfl | omega
      · have hs : (Mark.heading level text).shallow = false := decide_eq_false h
        rw [hs, outlineOf, if_neg (by omega), if_neg (by omega), if_neg (by omega)]
        rfl
    | _ => exact ih

/-- Marks without shallow headings add nothing to an outline. -/
theorem outline_append_of_not_shallow {ms : List Mark} (h : ms.countP Mark.shallow = 0) (rest : List Mark) :
    outline (ms ++ rest) = outline rest := by
  induction ms with
  | nil => rfl
  | cons m ms ih =>
    rw [List.countP_cons, Nat.add_eq_zero_iff] at h
    cases m with
    | heading level text =>
      have hs : ¬ level ≤ 3 := by
        intro hl
        have : (Mark.heading level text).shallow = true := decide_eq_true hl
        simp [this] at h
      rw [List.cons_append, outline, ih h.1, outlineOf, if_neg (by omega), if_neg (by omega), if_neg (by omega)]
      rfl
    | _ => exact ih h.1

theorem itemsBefore_concat_other (stop : Mark → Bool) (ms : List Mark) :
    itemsBefore stop (ms ++ [.other]) = itemsBefore stop ms := by
  induction ms with
  | nil => simp [itemsBefore]
  | cons m ms ih => cases m <;> simp [itemsBefore, ih]

/-- An empty line at the end does not show in the outline. -/
theorem outline_concat_other (ms : List Mark) : outline (ms ++ [.other]) = outline ms := by
  induction ms with
  | nil => rfl
  | cons m ms ih =>
    cases m with
    | heading level text =>
      have hd : itemsBefore endsMethods ((ms ++ [Mark.other]).dropWhile fun m => !endsUrls m) =
          itemsBefore endsMethods (ms.dropWhile fun m => !endsUrls m) := by
        rw [List.dropWhile_append]
        split
        · rename_i hn
          rw [List.isEmpty_iff.mp hn]
          rfl
        · exact itemsBefore_concat_other _ _
      simp only [List.cons_append, outline, ih, outlineOf, itemsBefore_concat_other, hd]
    | _ => exact ih

/-- A text that takes one line and is read from that line as it is. -/
def OneLine (s : List Char) : Prop := '\n' ∉ s ∧ s.getLast? ≠ some '\r'

def headingLine (level : Nat) (text : List Char) : List Char := List.replicate level '#' ++ ' ' :: text

def itemLine (word : List Char) : List Char := ['-', ' ', tick] ++ (word ++ [tick])

theorem lineMarks_headingLine {level : Nat} (h1 : 1 ≤ level) (h6 : level ≤ 6) (text : List Char) :
    lineMarks none (headingLine level text) = [.heading level text] ∧
      fenceAfter none (headingLine level text) = none := by
  obtain ⟨n, rfl⟩ : ∃ n, level = n + 1 := ⟨level - 1, by omega⟩
  have hh : (headingLine (n + 1) text).head? = some '#' := by simp [headingLine, List.replicate_succ]
  have ht : trimStart (headingLine (n + 1) text) = headingLine (n + 1) text :=
    trimStart_of_head fun c hc => by
      obtain rfl := Option.some.inj (hh.symm.trans hc)
      decide
  have hl : headingLevel? (headingLine (n + 1) text) = some (n + 1) :=
    (headingLevel?_eq_some_iff _ _).mpr ⟨⟨h1, h6⟩, ' ' :: text, rfl, by simp⟩
  have hd : (headingLine (n + 1) text).drop (n + 2) = text := by
    have : headingLine (n + 1) text = List.replicate (n + 1) '#' ++ [' '] ++ text := by simp [headingLine]
    rw [this, List.drop_append_of_le_length (by simp), List.drop_eq_nil_of_le (by simp), List.nil_append]
  refine ⟨?_, fenceAfter_of_head hh none⟩
  unfold lineMarks lineMark
  rw [ofLine?_of_head hh]
  simp only [ht, hl, hd]

theorem itemWord?_itemLine (word : List Char) : itemWord? (itemLine word) = some word := by
  have ha : after? ['-', ' ', tick] (itemLine word) = some (word ++ [tick]) := by
    simp [after?, itemLine]
  have hb : before? [tick] (word ++ [tick]) = some word := by
    simp [before?]
  rw [itemWord?, ha, Option.bind_some, hb]

theorem lineMarks_itemLine (word : List Char) :
    lineMarks none (itemLine word) = [.item word] ∧ fenceAfter none (itemLine word) = none := by
  have ht : trimStart (itemLine word) = itemLine word := trimStart_of_head (by simp [itemLine]; decide)
  have hf : Fence.ofLine? (itemLine word) = none := ofLine?_of_notMem (by simp [itemLine]; decide)
  have hl : headingLevel? (itemLine word) = none := by simp [headingLevel?, itemLine]
  have hm : itemLine word ≠ "**Method**".toList := by simp [itemLine]
  constructor
  · unfold lineMarks lineMark
    rw [ht, hf]
    simp only [hl, if_neg hm, itemWord?_itemLine]
  · rw [fenceAfter, ht, hf]

def labelledLines (label : List Char) (text : String) : List (List Char) :=
  label :: [] :: (words text.toList).map itemLine ++ [[]]

/-- The words of an entry's list of methods. -/
def methodWords (e : Entry) : List (List Char) :=
  match e.kind with
  | .api => words (e.method.getD "").toList
  | .restfulApi => []

/-- The lines of an entry up to its first fence. -/
def headLines (e : Entry) : List (List Char) :=
  headingLine entryLevel e.name.toList :: [] :: labelledLines "**URL**".toList e.url ++
    match e.kind with
    | .api => labelledLines "**Method**".toList (e.method.getD "")
    | .restfulApi => []

/-- The fenced lines of an entry. -/
def docLines (e : Entry) : List (List Char) :=
  ((docFence e.doc.toList).text ++ "doc".toList) :: e.doc.toList.splitOn '\n' ++ [(docFence e.doc.toList).text, []]

/-- The demoted lines of an entry. -/
def blockLines (e : Entry) : List (List Char) :=
  if isBlankText e.docMd.toList then [] else demotedLines entryLevel none (lines e.docMd.toList) ++ [[]]

def entryLines (e : Entry) : List (List Char) := headLines e ++ (docLines e ++ blockLines e)

def urlMarks (e : Entry) : List Mark :=
  .other :: .other :: .other :: (words e.url.toList).map Mark.item ++ [.other]

def methodMarks (e : Entry) : List Mark :=
  match e.kind with
  | .api => .methodLabel :: .other :: (words (e.method.getD "").toList).map Mark.item ++ [.other]
  | .restfulApi => []

/-- The marks between the heading of an entry and its first fence. -/
def listMarks (e : Entry) : List Mark := urlMarks e ++ methodMarks e

def blockMarks (e : Entry) : List Mark := marks none ((blockLines e).map dropReturn)

theorem marks_labelledLines {label : List Char} {m : Mark} (hm : lineMarks none label = [m])
    (hf : fenceAfter none label = none) (text : String) :
    marks none (labelledLines label text) = m :: .other :: (words text.toList).map Mark.item ++ [.other] ∧
      openAfter none (labelledLines label text) = none := by
  have hopen : ∀ line ∈ labelledLines label text, fenceAfter none line = none := by
    intro line hline
    simp only [labelledLines, List.cons_append, List.mem_cons, List.mem_append, List.mem_map, List.not_mem_nil,
      or_false] at hline
    rcases hline with rfl | rfl | ⟨word, _, rfl⟩ | rfl
    · exact hf
    · rfl
    · exact (lineMarks_itemLine word).2
    · rfl
  obtain ⟨hmarks, hafter⟩ := marks_of_fenceAfter hopen
  refine ⟨?_, hafter⟩
  have he : lineMarks none [] = [.other] := rfl
  have hw (word : List Char) : lineMarks none (itemLine word) = [.item word] := (lineMarks_itemLine word).1
  rw [hmarks]
  simp [labelledLines, List.flatMap_append, List.flatMap_map, hm, he, hw, ← List.map_eq_flatMap]

theorem marks_headLines (e : Entry) :
    marks none (headLines e) = .heading entryLevel e.name.toList :: listMarks e ∧ openAfter none (headLines e) = none := by
  obtain ⟨hh, hf⟩ := @lineMarks_headingLine entryLevel (by decide) (by decide) e.name.toList
  obtain ⟨hu, huo⟩ := @marks_labelledLines "**URL**".toList .other rfl rfl e.url
  obtain ⟨hm, hmo⟩ := @marks_labelledLines "**Method**".toList .methodLabel rfl rfl (e.method.getD "")
  have hstart : marks none (headingLine entryLevel e.name.toList :: [] :: labelledLines "**URL**".toList e.url) =
      .heading entryLevel e.name.toList :: urlMarks e := by
    rw [marks, hh, hf, marks, show fenceAfter none [] = none from rfl, hu]
    rfl
  have hopen : openAfter none (headingLine entryLevel e.name.toList :: [] :: labelledLines "**URL**".toList e.url) =
      none := by
    rw [openAfter, List.foldl_cons, hf, List.foldl_cons]
    exact huo
  unfold headLines listMarks methodMarks
  rw [marks_append, openAfter_append, hstart, hopen]
  cases e.kind with
  | api => exact ⟨by rw [hm]; rfl, hmo⟩
  | restfulApi => exact ⟨rfl, rfl⟩

/-- The fenced text is passed over, whatever it is. -/
theorem marks_docLines (e : Entry) :
    marks none ((docLines e).map dropReturn) = [.fence, .other] ∧ openAfter none ((docLines e).map dropReturn) = none := by
  have hv := docFence_valid e.doc.toList
  have hr : "doc".toList.head? ≠ some (docFence e.doc.toList).char := by simp [docFence, tick]
  have hfirst : dropReturn ((docFence e.doc.toList).text ++ "doc".toList) =
      (docFence e.doc.toList).text ++ "doc".toList := by
    rw [dropReturn_append (by decide)]
    rfl
  have hmark : lineMarks none ((docFence e.doc.toList).text ++ "doc".toList) = [.fence] := by
    unfold lineMarks
    rw [ofLine?_trimStart_text hv hr]
  obtain ⟨hm, ho⟩ := @marks_inside (docFence e.doc.toList) ((e.doc.toList.splitOn '\n').map dropReturn) (by
    intro line hline
    obtain ⟨l, hl, rfl⟩ := List.mem_map.mp hline
    rw [fenceAfter_dropReturn, openAfter_docFence _ l hl])
  have hclose : fenceAfter (some (docFence e.doc.toList)) (dropReturn (docFence e.doc.toList).text) = none := by
    rw [fenceAfter_dropReturn, fenceAfter_text hv]
  have hopen : fenceAfter none ((docFence e.doc.toList).text ++ "doc".toList) = some (docFence e.doc.toList) :=
    fenceAfter_text_append hv none hr
  have hempty : marks none (List.map dropReturn [[]]) = [.other] := rfl
  rw [docLines, List.cons_append, List.map_cons, List.map_append, hfirst]
  constructor
  · rw [marks, hmark, hopen, marks_append, hm, ho, List.map_cons, marks, hclose, hempty]
    rfl
  · rw [openAfter, List.foldl_cons, hopen, ← openAfter, openAfter_append, ho, List.map_cons, openAfter, List.foldl_cons,
      hclose]
    rfl

theorem strays_eq_nil_of_blank {ls : List (List Char)} (h : ∀ line ∈ ls, ∀ c ∈ line, isBlank c = true)
    (opened : Option Fence) : strays opened ls = [] := by
  induction ls generalizing opened with
  | nil => rfl
  | cons line ls ih =>
    have ht : trimStart line = [] := List.dropWhile_eq_nil_iff.mpr (h line (by simp))
    have hs : isStray line = false := by
      rw [isStray, ht]
      decide
    rw [strays, hs, ih fun l hl => h l (by simp [hl])]
    simp

/-- A markdown block leaves no block open, and the shallow headings read from it are its stray lines. -/
theorem marks_blockLines (e : Entry) :
    openAfter none ((blockLines e).map dropReturn) = none ∧
      (blockMarks e).countP Mark.shallow = (strays none (lines e.docMd.toList)).length := by
  rw [blockMarks, blockLines]
  split
  · rename_i hb
    have hblank : ∀ line ∈ lines e.docMd.toList, ∀ c ∈ line, isBlank c = true := fun line hline c hc =>
      List.all_eq_true.mp hb c (mem_of_mem_lines hline hc)
    rw [strays_eq_nil_of_blank hblank]
    exact ⟨rfl, rfl⟩
  · have ho : openAfter none ((demotedLines entryLevel none (lines e.docMd.toList)).map dropReturn) = none := by
      rw [openAfter_map_dropReturn, openAfter_demotedLines entryLevel _ none (by simp)]
    rw [List.map_append, openAfter_append, marks_append, ho, List.countP_append, countP_shallow_demotedLines]
    exact ⟨rfl, rfl⟩

def entryMarks (e : Entry) : List Mark :=
  .heading entryLevel e.name.toList :: listMarks e ++ .fence :: .other :: blockMarks e

theorem dropReturn_headingLine {text : List Char} (h : OneLine text) (level : Nat) :
    dropReturn (headingLine level text) = headingLine level text := by
  rw [headingLine, dropReturn_append (by simp)]
  cases text with
  | nil => rfl
  | cons c text => rw [show ' ' :: c :: text = [' '] ++ c :: text from rfl, dropReturn_append (by simp),
      dropReturn_eq_self h.2]

theorem dropReturn_labelledLines {label : List Char} (h : dropReturn label = label) (text : String) :
    (labelledLines label text).map dropReturn = labelledLines label text := by
  have hi (word : List Char) : dropReturn (itemLine word) = itemLine word :=
    dropReturn_eq_self (by rw [itemLine, ← List.append_assoc, List.getLast?_concat]; decide)
  simp [labelledLines, h, hi, Function.comp_def, show dropReturn [] = [] from rfl]

theorem dropReturn_headLines {e : Entry} (h : OneLine e.name.toList) : (headLines e).map dropReturn = headLines e := by
  unfold headLines
  rw [List.map_append, List.map_cons, List.map_cons, dropReturn_headingLine h, dropReturn_labelledLines (by decide)]
  cases e.kind with
  | api => rw [dropReturn_labelledLines (by decide)]; rfl
  | restfulApi => rfl

theorem marks_entryLines {e : Entry} (h : OneLine e.name.toList) :
    marks none ((entryLines e).map dropReturn) = entryMarks e ∧ openAfter none ((entryLines e).map dropReturn) = none := by
  obtain ⟨hh, hho⟩ := marks_headLines e
  obtain ⟨hd, hdo⟩ := marks_docLines e
  rw [entryLines, List.map_append, List.map_append, dropReturn_headLines h]
  constructor
  · rw [marks_append, hh, hho, marks_append, hd, hdo, ← blockMarks]
    simp [entryMarks]
  · rw [openAfter_append, hho, openAfter_append, hdo]
    exact (marks_blockLines e).1

theorem itemsBefore_items {stop : Mark → Bool} (h : ∀ word, stop (.item word) = false) (ws : List (List Char))
    (rest : List Mark) : itemsBefore stop (ws.map Mark.item ++ rest) = ws ++ itemsBefore stop rest := by
  induction ws with
  | nil => rfl
  | cons word ws ih => simp [itemsBefore, h, ih]

def entryOutline (e : Entry) : OutlineLine := .entry e.name.toList (words e.url.toList) (methodWords e)

theorem countP_listMarks (e : Entry) : (listMarks e).countP Mark.shallow = 0 := by
  unfold listMarks urlMarks methodMarks
  cases e.kind <;> simp [List.countP_eq_zero, Mark.shallow]

/-- An entry is read back with the words of its lists, whatever comes after its first fence. -/
theorem outlineOf_entry (e : Entry) (tail : List Mark) :
    outlineOf entryLevel e.name.toList (listMarks e ++ .fence :: tail) = [entryOutline e] := by
  have hu (word : List Char) : endsUrls (.item word) = false := rfl
  have hw (word : List Char) : endsMethods (.item word) = false := rfl
  have hurls : itemsBefore endsUrls (listMarks e ++ .fence :: tail) = words e.url.toList := by
    unfold listMarks urlMarks methodMarks
    cases e.kind <;> simp [itemsBefore, itemsBefore_items hu, endsUrls]
  have hpass : ∀ m ∈ urlMarks e, (!endsUrls m) = true := by
    intro m hm
    simp only [urlMarks, List.cons_append, List.mem_cons, List.mem_append, List.mem_map, List.not_mem_nil,
      or_false] at hm
    rcases hm with rfl | rfl | rfl | ⟨word, _, rfl⟩ | rfl <;> rfl
  have hmethods : itemsBefore endsMethods ((listMarks e ++ .fence :: tail).dropWhile fun m => !endsUrls m) =
      methodWords e := by
    rw [listMarks, List.append_assoc, List.dropWhile_append_of_pos hpass]
    unfold methodMarks methodWords
    cases e.kind <;> simp [itemsBefore, itemsBefore_items hw, endsMethods, endsUrls]
  simp only [outlineOf, entryLevel, hurls, hmethods]
  rfl

/-- The stray lines of an entry's markdown block. -/
def entryStrays (e : Entry) : List (List Char) := strays none (lines e.docMd.toList)

theorem outline_entryMarks {e : Entry} (h : entryStrays e = []) (rest : List Mark) :
    outline (entryMarks e ++ rest) = entryOutline e :: outline rest := by
  have hb : (.fence :: .other :: blockMarks e : List Mark).countP Mark.shallow = 0 := by
    have hc : (blockMarks e).countP Mark.shallow = 0 := by
      rw [(marks_blockLines e).2, ← entryStrays, h]
      rfl
    simp [hc, Mark.shallow]
  have hm : entryMarks e ++ rest =
      .heading entryLevel e.name.toList :: (listMarks e ++ .fence :: (.other :: blockMarks e ++ rest)) := by
    simp [entryMarks]
  rw [hm, outline, outlineOf_entry, outline_append_of_not_shallow (countP_listMarks e), List.singleton_append]
  exact congrArg (entryOutline e :: ·) (outline_append_of_not_shallow hb rest)

theorem countP_entryMarks (e : Entry) : (entryMarks e).countP Mark.shallow = 1 + (entryStrays e).length := by
  have hs : (Mark.heading entryLevel e.name.toList).shallow = true := rfl
  rw [entryMarks, List.countP_append, List.countP_cons, countP_listMarks, hs, List.countP_cons, List.countP_cons,
    (marks_blockLines e).2]
  simp [Mark.shallow, entryStrays]

def groupLines (g : Group) : List (List Char) :=
  headingLine 2 (groupHeading g) :: [] :: g.children.flatMap entryLines

def groupMarks (g : Group) : List Mark := .heading 2 (groupHeading g) :: .other :: g.children.flatMap entryMarks

def groupOutline (g : Group) : List OutlineLine := .group (groupHeading g) :: g.children.map entryOutline

/-- The names of a group and of its entries take one line each. -/
structure OneLineNames (g : Group) : Prop where
  name : OneLine g.name.toList
  nameExtra : OneLine g.nameExtra.toList
  entries : ∀ e ∈ g.children, OneLine e.name.toList

theorem OneLineNames.heading {g : Group} (h : OneLineNames g) : OneLine (groupHeading g) := by
  rw [groupHeading]
  split
  · exact h.name
  · refine ⟨?_, by rw [List.getLast?_concat]; decide⟩
    simpa using ⟨h.name.1, h.nameExtra.1⟩

theorem marks_flatMap_lines {α : Type} {items : List α} {f : α → List (List Char)} {m : α → List Mark}
    (h : ∀ a ∈ items, marks none ((f a).map dropReturn) = m a ∧ openAfter none ((f a).map dropReturn) = none) :
    marks none ((items.flatMap f).map dropReturn) = items.flatMap m ∧
      openAfter none ((items.flatMap f).map dropReturn) = none := by
  induction items with
  | nil => exact ⟨rfl, rfl⟩
  | cons a items ih =>
    obtain ⟨hm, ho⟩ := h a (by simp)
    obtain ⟨hms, hos⟩ := ih fun b hb => h b (by simp [hb])
    rw [List.flatMap_cons, List.map_append, List.flatMap_cons]
    exact ⟨by rw [marks_append, hm, ho, hms], by rw [openAfter_append, ho, hos]⟩

theorem marks_groupLines {g : Group} (h : OneLineNames g) :
    marks none ((groupLines g).map dropReturn) = groupMarks g ∧ openAfter none ((groupLines g).map dropReturn) = none := by
  obtain ⟨hh, hf⟩ := @lineMarks_headingLine 2 (by decide) (by decide) (groupHeading g)
  obtain ⟨hm, ho⟩ := marks_flatMap_lines fun e he => marks_entryLines (h.entries e he)
  rw [groupLines, List.map_cons, List.map_cons, dropReturn_headingLine h.heading]
  constructor
  · rw [marks, hh, hf, marks, show fenceAfter none (dropReturn []) = none from rfl, hm]
    rfl
  · rw [openAfter, List.foldl_cons, hf, List.foldl_cons]
    exact ho

theorem outline_groupMarks {g : Group} (h : ∀ e ∈ g.children, entryStrays e = []) (rest : List Mark) :
    outline (groupMarks g ++ rest) = groupOutline g ++ outline rest := by
  have hc : outline (g.children.flatMap entryMarks ++ rest) = g.children.map entryOutline ++ outline rest := by
    generalize g.children = children at h
    induction children with
    | nil => rfl
    | cons e children ih =>
      rw [List.flatMap_cons, List.append_assoc, outline_entryMarks (h e (by simp)), ih fun d hd => h d (by simp [hd])]
      rfl
  change outlineOf 2 (groupHeading g) _ ++ outline (g.children.flatMap entryMarks ++ rest) = _
  rw [hc]
  rfl

theorem countP_groupMarks (g : Group) :
    (groupMarks g).countP Mark.shallow = (groupOutline g).length + (g.children.flatMap entryStrays).length := by
  have hc : (g.children.flatMap entryMarks).countP Mark.shallow =
      g.children.length + (g.children.flatMap entryStrays).length := by
    induction g.children with
    | nil => rfl
    | cons e children ih =>
      rw [List.flatMap_cons, List.countP_append, countP_entryMarks, ih, List.flatMap_cons, List.length_append,
        List.length_cons]
      omega
  have hs : (Mark.heading 2 (groupHeading g)).shallow = true := rfl
  have ho : Mark.other.shallow = false := rfl
  rw [groupMarks, List.countP_cons, List.countP_cons, hc, hs, ho, groupOutline, List.length_cons, List.length_map]
  simp only [if_true, Bool.false_eq_true, if_false]
  omega

/-- The outline read from the marks of the groups is the aggregate's, unless markdown blocks hold stray lines. -/
theorem outline_marks_iff (aggregate : Aggregate) :
    outline (aggregate.flatMap groupMarks) = aggregate.flatMap groupOutline ↔
      ∀ g ∈ aggregate, ∀ e ∈ g.children, entryStrays e = [] := by
  constructor
  · intro h
    have hl := congrArg List.length h
    have hc : (aggregate.flatMap groupMarks).countP Mark.shallow = (aggregate.flatMap groupOutline).length +
        (aggregate.flatMap fun g => g.children.flatMap entryStrays).length := by
      clear h hl
      induction aggregate with
      | nil => rfl
      | cons g groups ih =>
        simp only [List.flatMap_cons, List.countP_append, countP_groupMarks, ih, List.length_append]
        omega
    rw [length_outline, hc] at hl
    have hz : (aggregate.flatMap fun g => g.children.flatMap entryStrays) = [] := List.length_eq_zero_iff.mp (by omega)
    intro g hg e he
    exact List.flatMap_eq_nil_iff.mp (List.flatMap_eq_nil_iff.mp hz g hg) e he
  · intro h
    induction aggregate with
    | nil => rfl
    | cons g groups ih =>
      rw [List.flatMap_cons, outline_groupMarks (h g (by simp)), ih fun k hk => h k (by simp [hk]), List.flatMap_cons]

end ApiHandbook.Markdown
