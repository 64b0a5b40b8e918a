import ApiHandbook.Proofs.Pages
import ApiHandbook.Proofs.Scripts
import Mathlib.Tactic.SplitIfs

/-! The script of the viewer page assigns the address of its data. Whatever is filled into the page, the last such
assignment is the one of the page itself, and its literal holds the mount path as it is shown in the page. -/
namespace ApiHandbook.Page
open Text

/-- What stands in front of the address in the script of the page. -/
def assignment : String := "var dataUrl = \""

/-- The code units of the address that the script of a page assigns last. -/
def dataUrl? (page : String) : Option (List Nat) :=
  (splitAtText assignment.toList page.toList).tail.getLast?.bind Script.string?

/-! ### Lines behind the address -/

/-- The line with the address. -/
def urlLine : String := "      var dataUrl = \"\x7b\x7b url_prefix \x7d\x7d/data\";"

theorem templateLines_eq : templateLines = templateLines.take 28 ++ urlLine :: templateLines.drop 29 := rfl

/-- What a line with a place or with an assignment of the address holds. -/
def tokens : List (List Char) := [['\x7b', '\x7b'], ['<', '!'], ['U', 'r', 'l', ' ', '=']]

theorem exists_token : ∀ place ∈ assignment :: dataPlace :: places, ∃ token ∈ tokens, token <:+: place.toList := by
  decide +kernel

theorem forall_mem_cons_ofList {P : List Char → Prop} {first : List Char} {rest : List String} (h : P first)
    (hrest : ∀ line ∈ rest, P line.toList) : ∀ line ∈ String.ofList first :: rest, P line.toList := by
  refine List.forall_mem_cons.mpr ⟨?_, hrest⟩
  rwa [String.toList_ofList]

/-- Whether a line holds none of the tokens. -/
def Bare (line : List Char) : Prop := ∀ token ∈ tokens, ¬ token <:+: line

instance : DecidablePred Bare := fun _ => inferInstanceAs (Decidable (∀ token ∈ tokens, _))

theorem bare_of_mem_drop : ∀ line ∈ templateLines.drop 29, Bare line.toList := by
  -- One line at a time, whose characters are known as soon as the text of the line is.
  repeat refine forall_mem_cons_ofList (by decide +kernel) ?_
  exact nofun

theorem not_infix_of_bare {line : List Char} (h : Bare line) {place : String}
    (hplace : place ∈ assignment :: dataPlace :: places) : ¬ place.toList <:+: line := by
  obtain ⟨token, htoken, hoccurs⟩ := exists_token place hplace
  exact fun hline => h token htoken (hoccurs.trans hline)

/-! ### The line with the address -/

/-- A line of the viewer page without inlined data. -/
def indexLine (settings : Settings) (line : List Char) : List Char :=
  replace dataPlace.toList [] (fillAll (values settings settings.cdn) line)

theorem toList_index (settings : Settings) :
    (index settings).toList = unlines (templateLines.map fun line => indexLine settings line.toList) := by
  obtain ⟨hplace, hfeed⟩ := place_valid dataPlace List.mem_cons_self
  simp only [indexLine]
  rw [index, toList_render, toList_frame, String.toList_empty, replace_unlines [] hplace hfeed, List.map_map,
    Function.comp_def]

theorem indexLine_of_bare (settings : Settings) {line : List Char} (h : Bare line) : indexLine settings line = line := by
  have hplaces : ∀ place ∈ places, ¬ place.toList <:+: line := fun place hp =>
    not_infix_of_bare h (List.mem_cons_of_mem _ (List.mem_cons_of_mem _ hp))
  have hdata : ¬ dataPlace.toList <:+: line := not_infix_of_bare h (List.mem_cons_of_mem _ List.mem_cons_self)
  rw [indexLine, fillAll_eq_self mem_places_of_mem_values hplaces,
    replace_eq_self [] (place_valid dataPlace List.mem_cons_self).1 hdata]

/-- The mount path as it stands in the script of the page. -/
def shownPath (settings : Settings) : List Char :=
  replace titlePlace.toList (escape settings.title).toList (escape settings.urlPrefix).toList

theorem notMem_escapeChar (c : Char) : '<' ∉ escapeChar c ∧ '"' ∉ escapeChar c := by
  rw [escapeChar]
  split_ifs with h1 h2 h3 h4
  · decide
  · decide
  · decide
  · decide
  · simp [Ne.symm h2, Ne.symm h4]

theorem toList_escape (s : String) : (escape s).toList = s.toList.flatMap escapeChar := String.toList_ofList

theorem notMem_escape (s : String) : '<' ∉ (escape s).toList ∧ '"' ∉ (escape s).toList := by
  simp only [toList_escape, List.mem_flatMap, not_exists, not_and]
  exact ⟨fun c _ => (notMem_escapeChar c).1, fun c _ => (notMem_escapeChar c).2⟩

theorem notMem_shownPath (settings : Settings) : '<' ∉ shownPath settings ∧ '"' ∉ shownPath settings := by
  have hplace : titlePlace.toList ≠ [] := by decide
  obtain ⟨htitle, hquoteTitle⟩ := notMem_escape settings.title
  obtain ⟨hpath, hquotePath⟩ := notMem_escape settings.urlPrefix
  exact ⟨fun h => (mem_replace _ hplace h).elim htitle hpath,
    fun h => (mem_replace _ hplace h).elim hquoteTitle hquotePath⟩

/-- The line with the address up to its opening quote. -/
def lead : List Char := "      var dataUrl = ".toList

/-- What follows the mount path in the line with the address. -/
def trail : List Char := ['d', 'a', 't', 'a', '"', ';']

theorem toList_urlLine : urlLine.toList = lead ++ '"' :: (mountPlace.toList ++ '/' :: trail) := by
  decide +kernel

theorem replace_mountPlace_urlLine (value : List Char) :
    replace mountPlace.toList value urlLine.toList = lead ++ '"' :: (value ++ '/' :: trail) := by
  have hplace : mountPlace.toList ≠ [] := by decide
  have hquote : '"' ∉ mountPlace.toList := by decide
  have hlead : ¬ mountPlace.toList <:+: lead := by decide
  have htrail : ¬ mountPlace.toList <:+: '/' :: trail := by decide
  rw [toList_urlLine, replace_append_cons value hplace hquote, replace_append_left value hplace,
    replace_eq_self value hplace hlead, replace_eq_self value hplace htrail]

theorem replace_titlePlace_urlLine (value path : List Char) :
    replace titlePlace.toList value (lead ++ '"' :: (path ++ '/' :: trail)) =
      lead ++ '"' :: (replace titlePlace.toList value path ++ '/' :: trail) := by
  have hplace : titlePlace.toList ≠ [] := by decide
  have hquote : '"' ∉ titlePlace.toList := by decide
  have hslash : '/' ∉ titlePlace.toList := by decide
  have hlead : ¬ titlePlace.toList <:+: lead := by decide
  have htrail : ¬ titlePlace.toList <:+: trail := by decide
  rw [replace_append_cons value hplace hquote, replace_append_cons value hplace hslash,
    replace_eq_self value hplace hlead, replace_eq_self value hplace htrail]

theorem indexLine_urlLine (settings : Settings) :
    indexLine settings urlLine.toList = lead ++ '"' :: (shownPath settings ++ '/' :: trail) := by
  have hstylesheet : ¬ stylesheetPlace.toList <:+: urlLine.toList := by decide
  have hscript : ¬ scriptPlace.toList <:+: urlLine.toList := by decide
  have hdata : ¬ dataPlace.toList <:+: lead ++ '"' :: (shownPath settings ++ '/' :: trail) := by
    intro h
    have hmem : '<' ∈ lead ++ '"' :: (shownPath settings ++ '/' :: trail) := h.subset (by decide)
    have hlead : '<' ∉ lead := by decide
    have htrail : '<' ∉ trail := by decide
    simp [hlead, htrail, (notMem_shownPath settings).1] at hmem
  rw [indexLine, values, fillAll_cons, fillAll_cons, fillAll_cons, fillAll_cons,
    replace_eq_self _ (by decide) hstylesheet, replace_eq_self _ (by decide) hscript, replace_mountPlace_urlLine,
    replace_titlePlace_urlLine, fillAll, List.foldl_nil, ← shownPath, replace_eq_self [] (by decide) hdata]

/-- The assignment up to its opening quote. -/
def declaration : List Char := "var dataUrl = ".toList

theorem toList_assignment : assignment.toList = declaration ++ ['"'] := by decide +kernel

theorem lead_concat : lead ++ ['"'] = "      ".toList ++ assignment.toList := by decide +kernel

/-- The lines behind the address. -/
def remainder : List Char := unlines ((templateLines.drop 29).map String.toList)

theorem not_assignment_infix_remainder : ¬ assignment.toList <:+: ';' :: '\n' :: remainder := by
  intro h
  have hlines : ';' :: '\n' :: remainder = unlines ([';'] :: (templateLines.drop 29).map String.toList) := rfl
  rw [hlines] at h
  obtain ⟨line, hline, hoccurs⟩ := exists_infix_of_infix_unlines (by decide) (by decide) h
  rcases List.mem_cons.mp hline with rfl | hmem
  · exact absurd hoccurs (by decide)
  · obtain ⟨text, htext, rfl⟩ := List.mem_map.mp hmem
    exact not_infix_of_bare (bare_of_mem_drop text htext) List.mem_cons_self hoccurs

/-- No assignment stands behind the opening quote of the address. -/
theorem not_assignment_infix {path : List Char} (h : '"' ∉ path) :
    ¬ assignment.toList <:+: path ++ "/data".toList ++ '"' :: ';' :: '\n' :: remainder := by
  intro hoccurs
  have hquote : '"' ∉ path ++ "/data".toList := by
    rw [List.mem_append, not_or]
    exact ⟨h, by decide⟩
  rw [toList_assignment] at hoccurs
  rcases suffix_or_infix_of_infix (by decide) hquote hoccurs with ⟨front, hfront⟩ | hrest
  · have hlast : declaration.getLast? = "/data".toList.getLast? := by
      have := congrArg List.getLast? hfront
      rwa [List.getLast?_append_of_ne_nil _ (by decide), List.getLast?_append_of_ne_nil _ (by decide)] at this
    exact absurd hlast (by decide)
  · exact not_assignment_infix_remainder (toList_assignment ▸ hrest)

/-- The literal that the page assigns holds the mount path as it is shown, up to its closing quote. -/
theorem dataUrl?_index (settings : Settings) : ∃ rest,
    dataUrl? (index settings) = Script.string? (shownPath settings ++ "/data".toList ++ '"' :: rest) := by
  have hafter : (templateLines.drop 29).map (fun line => indexLine settings line.toList) =
      (templateLines.drop 29).map String.toList :=
    List.map_congr_left fun line hline => indexLine_of_bare settings (bare_of_mem_drop line hline)
  have hpage : (index settings).toList =
      (unlines ((templateLines.take 28).map fun line => indexLine settings line.toList) ++ "      ".toList) ++
        (assignment.toList ++ (shownPath settings ++ "/data".toList ++ '"' :: ';' :: '\n' :: remainder)) := by
    have hdata : "/data".toList = ['/', 'd', 'a', 't', 'a'] := by decide
    have hlines := congrArg (List.map fun line => indexLine settings line.toList) templateLines_eq
    rw [toList_index, hlines, List.map_append, List.map_cons, hafter, unlines_append, unlines_cons,
      indexLine_urlLine, List.append_cons lead, lead_concat, hdata, ← remainder]
    simp only [trail, List.append_assoc, List.cons_append, List.nil_append]
  have hletter : ∃ key, assignment.toList = 'v' :: key ∧ 'v' ∉ key := ⟨_, rfl, by decide⟩
  obtain ⟨key, hkey, hv⟩ := hletter
  have hnone := not_assignment_infix (notMem_shownPath settings).2
  refine ⟨';' :: '\n' :: remainder, ?_⟩
  rw [dataUrl?, hpage]
  rw [hkey] at hnone ⊢
  rw [getLast?_tail_splitAtText hv _ hnone, Option.bind_some]

end ApiHandbook.Page
