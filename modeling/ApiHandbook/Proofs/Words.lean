import ApiHandbook.Aggregate
import ApiHandbook.Proofs.Entries
import ApiHandbook.Proofs.Lines

/-! The words of a text, and what uniting the words of texts one after the other makes of them. -/
namespace ApiHandbook.Text

/-- What a text can have as a word. -/
def IsWord (w : List Char) : Prop := w ≠ [] ∧ ∀ c ∈ w, isBlank c = false

/-- A blank between two texts separates their words. -/
theorem words_append_cons (s t : List Char) {c : Char} (hc : isBlank c = true) :
    words (s ++ c :: t) = words s ++ words t := by
  simp only [words, List.splitOnP_append_cons s t hc, List.filter_append]

theorem words_of_isWord {w : List Char} (hw : IsWord w) : words w = [w] := by
  rw [words, List.splitOnP_eq_singleton hw.2]
  simpa using hw.1

theorem isWord_of_mem_words {s w : List Char} (h : w ∈ words s) : IsWord w := by
  obtain ⟨hs, hn⟩ := List.mem_filter.mp h
  exact ⟨by simpa using hn, eq_false_of_mem_splitOnP isBlank s w hs⟩

/-- Words joined by single blanks are read back as they are. -/
theorem words_join (ws : List (List Char)) (h : ∀ w ∈ ws, IsWord w) : words ([' '].intercalate ws) = ws := by
  induction ws with
  | nil => rfl
  | cons w ws ih =>
    have hw := words_of_isWord (h w (by simp))
    have hr := ih fun v hv => h v (by simp [hv])
    cases ws with
    | nil => simpa using hw
    | cons v ws =>
      rw [List.intercalate_cons_cons, List.append_assoc, List.singleton_append, words_append_cons _ _ (by decide), hw,
        hr]
      rfl

/-- The words of a list of texts joined by blanks are the words of all of them. -/
theorem words_joinMethods (texts : List String) :
    words (joinMethods texts).toList = texts.flatMap fun t => words t.toList := by
  rw [joinMethods, String.toList_intercalate]
  change words ([' '].intercalate _) = _
  induction texts with
  | nil => rfl
  | cons t texts ih =>
    cases texts with
    | nil => simp
    | cons u texts =>
      rw [List.map_cons, List.map_cons, List.intercalate_cons_cons, List.append_assoc, List.singleton_append,
        words_append_cons _ _ (by decide), List.flatMap_cons, ← ih]
      rfl

/-- The text that further texts leave of a first one: without any it stays as it is, and otherwise its words are
followed, after single blanks, by each word of the others that is missing, once and in order. -/
def united (first : String) (others : List String) : String :=
  if others.isEmpty then first
  else
    let own := words first.toList
    String.ofList ([' '].intercalate
      (own ++ ((others.flatMap fun t => words t.toList).removeAll own).eraseDups))

theorem words_united (first : String) (others : List String) :
    words (united first others).toList =
      words first.toList ++ ((others.flatMap fun t => words t.toList).removeAll (words first.toList)).eraseDups := by
  rw [united]
  split
  · rename_i h
    obtain rfl := List.isEmpty_iff.mp h
    simp
  · rw [String.toList_ofList, words_join]
    intro w hw
    rcases List.mem_append.mp hw with hw | hw
    · exact isWord_of_mem_words hw
    · have hm := (List.mem_filter.mp (List.mem_eraseDups.mp hw)).1
      obtain ⟨t, _, ht⟩ := List.mem_flatMap.mp hm
      exact isWord_of_mem_words ht

/-- No word is lost or made up. -/
theorem mem_words_united (w : List Char) (first : String) (others : List String) :
    w ∈ words (united first others).toList ↔ ∃ t ∈ first :: others, w ∈ words t.toList := by
  rw [words_united, List.mem_append, List.mem_eraseDups, List.removeAll, List.mem_filter, List.mem_flatMap]
  by_cases hw : w ∈ words first.toList <;> simp [hw]

/-- Removing from a list what two others hold, the second of them without what the first holds. -/
private theorem removeAll_append_eraseDups (own more items : List (List Char)) :
    items.removeAll (own ++ (more.removeAll own).eraseDups) = (items.removeAll own).removeAll (more.removeAll own) := by
  simp only [List.removeAll, List.filter_filter]
  apply List.filter_congr
  intro w _
  rw [Bool.eq_iff_iff]
  by_cases hw : w ∈ own <;> simp [hw]

theorem unionWords_united (first : String) (others : List String) (t : String) :
    unionWords (united first others) t = united first (others ++ [t]) := by
  rw [unionWords, foldl_missing, words_united, removeAll_append_eraseDups, united, if_neg (by simp), List.append_assoc]
  simp only [List.flatMap_append, List.flatMap_singleton]
  rw [show ∀ a b c : List (List Char), (a ++ b).removeAll c = a.removeAll c ++ b.removeAll c from
    fun a b c => List.filter_append a b, List.eraseDups_append]

theorem foldl_unionWords (first : String) (others : List String) :
    others.foldl unionWords first = united first others := by
  induction others using List.reverseRecOn with
  | nil => rfl
  | append_singleton others t ih => rw [List.foldl_append, ih, List.foldl_cons, List.foldl_nil, unionWords_united]

end ApiHandbook.Text
