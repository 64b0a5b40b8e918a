import ApiHandbook.Files.Staging
import ApiHandbook.Proofs.Trees

/-! The entries of one directory, as they are changed one after the other, and what that changes in the tree. -/
namespace ApiHandbook.Files

namespace Node
variable {root : Node} {directory : Location} {entries : List (String × Node)}
  {f g : List (String × Node) → List (String × Node)}

theorem edit_edit (root : Node) (directory : Location) :
    (root.edit f directory).edit g directory = root.edit (g ∘ f) directory := by
  induction directory generalizing root with
  | nil => cases root <;> rfl
  | cons name rest ih =>
    cases root with
    | directory entries =>
      rw [edit, edit]
      cases hchild : entries.lookup name with
      | none => simp only [edit, hchild]
      | some child => simp only [edit, lookup_put, if_true, put_put, ih]
    | _ => rfl

theorem find?_cons_eq_directory {name : String} {rest : Location}
    (h : root.find? (name :: rest) = some (.directory entries)) :
    ∃ above child, root = .directory above ∧ above.lookup name = some child ∧
      child.find? rest = some (.directory entries) := by
  obtain ⟨above, child, rfl, hchild, -⟩ := entry_of_directory (kind?_eq_directory_iff.mpr ⟨entries, h⟩) rfl
  rw [find?, hchild] at h
  exact ⟨above, child, rfl, hchild, h⟩

section Edit
variable (hentries : root.find? directory = some (.directory entries))
include hentries

theorem edit_congr (h : f entries = g entries) : root.edit f directory = root.edit g directory := by
  induction directory generalizing root with
  | nil =>
    obtain rfl := Option.some.inj ((find?.eq_1 root).symm.trans hentries)
    rw [edit, edit, h]
  | cons name rest ih =>
    obtain ⟨above, child, rfl, hchild, hrest⟩ := find?_cons_eq_directory hentries
    simp only [edit, hchild, ih hrest]

theorem edit_eq_self (h : f entries = entries) : root.edit f directory = root := by
  induction directory generalizing root with
  | nil =>
    obtain rfl := Option.some.inj ((find?.eq_1 root).symm.trans hentries)
    rw [edit, h]
  | cons name rest ih =>
    obtain ⟨above, child, rfl, hchild, hrest⟩ := find?_cons_eq_directory hentries
    simp only [edit, hchild, ih hrest, put_of_lookup hchild]

theorem find?_edit : (root.edit f directory).find? directory = some (.directory (f entries)) := by
  induction directory generalizing root with
  | nil =>
    obtain rfl := Option.some.inj ((find?.eq_1 root).symm.trans hentries)
    rw [edit, find?]
  | cons name rest ih =>
    obtain ⟨above, child, rfl, hchild, hrest⟩ := find?_cons_eq_directory hentries
    simp only [edit, hchild, find?, lookup_put, if_true, Option.bind_some]
    exact ih hrest

theorem kind?_below (name : String) (below : Location) :
    root.kind? (directory ++ name :: below) = (entries.lookup name).bind fun node => node.kind? below := by
  rw [kind?, find?_append, hentries, Option.bind_some]
  exact kind?_cons entries name below

theorem kind?_edit_below (name : String) (below : Location) :
    (root.edit f directory).kind? (directory ++ name :: below) =
      ((f entries).lookup name).bind fun node => node.kind? below :=
  kind?_below (find?_edit hentries) name below

/-- A change to the entries of a directory changes nothing but what stands below it. -/
theorem kind?_edit {location : Location} (h : ∀ name below, location ≠ directory ++ name :: below) :
    (root.edit f directory).kind? location = root.kind? location := by
  induction directory generalizing root location with
  | nil =>
    obtain rfl := Option.some.inj ((find?.eq_1 root).symm.trans hentries)
    cases location with
    | nil => rfl
    | cons step below => exact absurd rfl (h step below)
  | cons name rest ih =>
    obtain ⟨above, child, rfl, hchild, hrest⟩ := find?_cons_eq_directory hentries
    simp only [edit, hchild]
    cases location with
    | nil => rfl
    | cons step below =>
      rw [kind?_cons, kind?_cons, lookup_put]
      by_cases hstep : step = name
      · subst hstep
        rw [if_pos rfl, hchild]
        exact ih hrest fun name' below' heq => h name' below' (heq ▸ rfl)
      · rw [if_neg hstep]

/-- Two changes after which each name has the same entry have the same effect. -/
theorem kind?_edit_congr (h : ∀ name, (f entries).lookup name = (g entries).lookup name) (location : Location) :
    (root.edit f directory).kind? location = (root.edit g directory).kind? location := by
  by_cases hbelow : ∃ name below, location = directory ++ name :: below
  · obtain ⟨name, below, rfl⟩ := hbelow
    rw [kind?_edit_below hentries, kind?_edit_below hentries, h]
  · have houtside : ∀ name below, location ≠ directory ++ name :: below :=
      fun name below heq => hbelow ⟨name, below, heq⟩
    rw [kind?_edit hentries houtside, kind?_edit hentries houtside]

/-- What is put below a directory changes its entries. -/
theorem insert_eq_edit (name : String) (below : Location) (new : Node) :
    root.insert (directory ++ name :: below) new = root.edit (fun entries =>
      put name (((entries.lookup name).getD (.directory [])).insert below new) entries) directory := by
  induction directory generalizing root with
  | nil =>
    obtain rfl := Option.some.inj ((find?.eq_1 root).symm.trans hentries)
    rfl
  | cons first rest ih =>
    obtain ⟨above, child, rfl, hchild, hrest⟩ := find?_cons_eq_directory hentries
    rw [List.cons_append, insert, hchild, Option.getD_some, ih hrest]
    simp only [edit, hchild]

theorem insert_concat (name : String) (new : Node) :
    root.insert (directory ++ [name]) new = root.edit (put name new) directory := by
  rw [insert_eq_edit hentries]
  exact edit_congr hentries (by rw [insert])

end Edit

theorem remove_concat (root : Node) (directory : Location) (name : String) :
    root.remove (directory ++ [name]) = root.edit (·.filter (·.1 != name)) directory := by
  rw [remove, List.getLast?_concat, List.dropLast_concat]

/-- The tree with other entries in a directory. -/
def withEntries (root : Node) (directory : Location) (entries : List (String × Node)) : Node :=
  root.edit (fun _ => entries) directory

theorem remove_withEntries (root : Node) (directory : Location) (entries : List (String × Node)) (name : String) :
    (root.withEntries directory entries).remove (directory ++ [name]) =
      root.withEntries directory (entries.filter (·.1 != name)) := by
  rw [remove_concat, withEntries, edit_edit]
  rfl

section WithEntries
variable {entries' : List (String × Node)} {name : String} (hentries : root.find? directory = some (.directory entries))
include hentries

theorem withEntries_self : root.withEntries directory entries = root := edit_eq_self hentries rfl

theorem find?_withEntries : (root.withEntries directory entries').find? directory = some (.directory entries') :=
  find?_edit hentries

theorem insert_withEntries (name : String) (new : Node) :
    (root.withEntries directory entries').insert (directory ++ [name]) new =
      root.withEntries directory (put name new entries') := by
  rw [insert_concat (find?_withEntries hentries), withEntries, edit_edit]
  rfl

/-- What is put in an empty directory is its only entry. -/
theorem insert_below_withEntries (hname : entries'.lookup name = some (.directory [])) (below : String) (new : Node) :
    (root.withEntries directory entries').insert (directory ++ [name, below]) new =
      root.withEntries directory (put name (.directory [(below, new)]) entries') := by
  rw [insert_eq_edit (find?_withEntries hentries), withEntries, edit_edit]
  refine edit_congr hentries ?_
  simp only [Function.comp_apply, hname, Option.getD_some, insert, put]

theorem insert_eq_withEntries (name : String) (new : Node) :
    root.insert (directory ++ [name]) new = root.withEntries directory (put name new entries) := by
  rw [← insert_withEntries hentries, withEntries_self hentries]

theorem kind?_withEntries_congr {entries'' : List (String × Node)}
    (h : ∀ name, entries'.lookup name = entries''.lookup name) (location : Location) :
    (root.withEntries directory entries').kind? location = (root.withEntries directory entries'').kind? location :=
  kind?_edit_congr hentries h location

end WithEntries

section Undone
variable (hdirectory : root.kind? directory = some .directory) {name other : String}
include hdirectory

theorem kind?_remove {location : Location} (h : ¬ directory ++ [name] <+: location) :
    (root.remove (directory ++ [name])).kind? location = root.kind? location := by
  obtain ⟨entries, hentries⟩ := kind?_eq_directory_iff.mp hdirectory
  rw [remove_concat]
  by_cases hbelow : ∃ step below, location = directory ++ step :: below
  · obtain ⟨step, below, rfl⟩ := hbelow
    have hne : step ≠ name := fun heq => h ⟨below, by rw [heq, List.append_assoc]; rfl⟩
    rw [kind?_edit_below hentries, kind?_below hentries, lookup_filter_ne, if_neg hne]
  · exact kind?_edit hentries fun step below heq => hbelow ⟨step, below, heq⟩

theorem kind?_remove_self : (root.remove (directory ++ [name])).kind? (directory ++ [name]) = none := by
  obtain ⟨entries, hentries⟩ := kind?_eq_directory_iff.mp hdirectory
  rw [remove_concat, kind?_edit_below hentries, lookup_filter_ne, if_pos rfl]
  rfl

theorem insert_insert (new new' : Node) :
    (root.insert (directory ++ [name]) new).insert (directory ++ [name]) new' =
      root.insert (directory ++ [name]) new' := by
  obtain ⟨entries, hentries⟩ := kind?_eq_directory_iff.mp hdirectory
  rw [insert_eq_withEntries hentries, insert_withEntries hentries, put_put, insert_eq_withEntries hentries]

theorem insert_insert_below (below : String) (new : Node) :
    (root.insert (directory ++ [name]) (.directory [])).insert (directory ++ [name, below]) new =
      root.insert (directory ++ [name]) (.directory [(below, new)]) := by
  obtain ⟨entries, hentries⟩ := kind?_eq_directory_iff.mp hdirectory
  have hname : (put name (.directory []) entries).lookup name = some (.directory []) := by rw [lookup_put, if_pos rfl]
  rw [insert_eq_withEntries hentries, insert_below_withEntries hentries hname, put_put, insert_eq_withEntries hentries]

variable (hfree : root.kind? (directory ++ [name]) = none)
include hfree

/-- What is put at a free name is undone by taking it away. -/
theorem remove_insert (new : Node) : (root.insert (directory ++ [name]) new).remove (directory ++ [name]) = root := by
  obtain ⟨entries, hentries⟩ := kind?_eq_directory_iff.mp hdirectory
  rw [kind?_concat hentries, Option.map_eq_none_iff] at hfree
  rw [insert_eq_withEntries hentries, remove_withEntries, filter_put_self, filter_ne_of_lookup hfree,
    withEntries_self hentries]

/-- So is what is put there before another entry is. -/
theorem remove_insert_insert (hne : other ≠ name) (new new' : Node) :
    ((root.insert (directory ++ [name]) new).insert (directory ++ [other]) new').remove (directory ++ [name]) =
      root.insert (directory ++ [other]) new' := by
  obtain ⟨entries, hentries⟩ := kind?_eq_directory_iff.mp hdirectory
  rw [kind?_concat hentries, Option.map_eq_none_iff] at hfree
  rw [insert_eq_withEntries hentries, insert_withEntries hentries, remove_withEntries, filter_put_of_ne hne,
    filter_put_self, filter_ne_of_lookup hfree, insert_eq_withEntries hentries]

end Undone

end Node

end ApiHandbook.Files
