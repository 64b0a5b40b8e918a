import ApiHandbook.Page
import ApiHandbook.Proofs.Replacement
import Mathlib.Data.List.Infix

/-! The viewer page is filled line by line, since no place reaches over a line feed. What is put into one line never
touches another. -/
namespace ApiHandbook.Page
open Text

def titlePlace : String := "\x7b\x7b title \x7d\x7d"

def mountPlace : String := "\x7b\x7b url_prefix \x7d\x7d"

/-- The stylesheet block as it is filled in. -/
def stylesheet (settings : Settings) (cdn : Bool) : String :=
  mapped trimEnd (if cdn then blockOr networkStylesheet settings.cdnCssTemplate else localStylesheet)

/-- The script block as it is filled in. -/
def script (settings : Settings) (cdn : Bool) : String :=
  mapped trimEnd (if cdn then blockOr networkScript settings.cdnJsTemplate else localScript)

/-- What is filled in before the data, with its places in order. -/
def values (settings : Settings) (cdn : Bool) : List (String × String) :=
  [(stylesheetPlace, stylesheet settings cdn), (scriptPlace, script settings cdn),
    (mountPlace, escape settings.urlPrefix), (titlePlace, escape settings.title)]

/-- A text with its places filled, one place after the other. -/
def fillAll (values : List (String × String)) (s : List Char) : List Char :=
  values.foldl (fun s (place, value) => replace place.toList value.toList s) s

theorem toList_fill (place value page : String) :
    (fill place value page).toList = replace place.toList value.toList page.toList := String.toList_ofList

theorem fillAll_cons (place value : String) (given : List (String × String)) (s : List Char) :
    fillAll ((place, value) :: given) s = fillAll given (replace place.toList value.toList s) := rfl

theorem toList_render (settings : Settings) (cdn : Bool) (data : String) :
    (render settings cdn data).toList =
      replace dataPlace.toList data.toList (fillAll (values settings cdn) template.toList) := by
  rw [render, toList_fill, toList_fill, toList_fill, toList_fill, toList_fill, values, fillAll_cons, fillAll_cons,
    fillAll_cons, fillAll_cons, stylesheet, script, mountPlace, titlePlace, fillAll, List.foldl_nil]

/-- The places that are filled before the data. -/
def places : List String := [stylesheetPlace, scriptPlace, mountPlace, titlePlace]

theorem place_valid : ∀ place ∈ dataPlace :: places, place.toList ≠ [] ∧ '\n' ∉ place.toList := by
  decide

/-- A text is filled line by line. -/
theorem fillAll_unlines {given : List (String × String)} (h : ∀ entry ∈ given, entry.1 ∈ places)
    (ls : List (List Char)) : fillAll given (unlines ls) = unlines (ls.map (fillAll given)) := by
  induction given generalizing ls with
  | nil => exact (congrArg unlines (List.map_id ls)).symm
  | cons entry given ih =>
    obtain ⟨hne, hfeed⟩ := place_valid entry.1 (List.mem_cons_of_mem _ (h entry List.mem_cons_self))
    change fillAll given (replace _ _ _) = _
    rw [replace_unlines _ hne hfeed, ih fun e he => h e (List.mem_cons_of_mem _ he), List.map_map]
    rfl

/-- A line without places stays as it is. -/
theorem fillAll_eq_self {given : List (String × String)} (h : ∀ entry ∈ given, entry.1 ∈ places) {line : List Char}
    (hline : ∀ place ∈ places, ¬ place.toList <:+: line) : fillAll given line = line := by
  induction given with
  | nil => rfl
  | cons entry given ih =>
    have hentry := h entry List.mem_cons_self
    change fillAll given (replace _ _ _) = _
    rw [replace_eq_self _ (place_valid entry.1 (List.mem_cons_of_mem _ hentry)).1 (hline entry.1 hentry),
      ih fun e he => h e (List.mem_cons_of_mem _ he)]

theorem mem_places_of_mem_values {settings : Settings} {cdn : Bool} :
    ∀ entry ∈ values settings cdn, entry.1 ∈ places := fun _ he => List.mem_map_of_mem he

theorem toList_join_lines (ls : List String) :
    (String.join (ls.map (· ++ "\n"))).toList = unlines (ls.map String.toList) := by
  simp [unlines, List.flatMap_map]

theorem toList_template : template.toList = unlines (templateLines.map String.toList) := toList_join_lines _

theorem toList_frame (settings : Settings) (cdn : Bool) :
    fillAll (values settings cdn) template.toList =
      unlines (templateLines.map fun line => fillAll (values settings cdn) line.toList) := by
  rw [toList_template, fillAll_unlines mem_places_of_mem_values, List.map_map, Function.comp_def]

theorem infix_unlines {ls : List (List Char)} {line : List Char} (h : line ∈ ls) : line <:+: unlines ls := by
  obtain ⟨before, after, rfl⟩ := List.append_of_mem h
  rw [unlines_append, unlines_cons]
  exact ⟨unlines before, '\n' :: unlines after, List.append_assoc ..⟩

/-- The line for the data. -/
def dataLine : String := "  <!-- ___DATA_TEMPLATE___ -->"

theorem dataLine_mem : dataLine ∈ templateLines := List.mem_of_getElem? (i := 25) rfl

theorem fillAll_dataLine (settings : Settings) (cdn : Bool) :
    fillAll (values settings cdn) dataLine.toList = dataLine.toList :=
  fillAll_eq_self mem_places_of_mem_values (by decide)

/-- The place of the data stays where it is until the data come. -/
theorem infix_frame (settings : Settings) (cdn : Bool) :
    dataPlace.toList <:+: fillAll (values settings cdn) template.toList := by
  have hline : dataPlace.toList <:+: dataLine.toList := by decide
  rw [toList_frame]
  refine hline.trans (infix_unlines ?_)
  exact List.mem_map.mpr ⟨dataLine, dataLine_mem, fillAll_dataLine settings cdn⟩

end ApiHandbook.Page
