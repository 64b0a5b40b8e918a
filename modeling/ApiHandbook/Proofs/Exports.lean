import ApiHandbook.Proofs.Directories
import ApiHandbook.Proofs.Spelling

/-! Pages that are exported without force. Nothing stood where such a page is written, as far as the path tells: a path
that goes up from a directory that is not there yet, or asks for a directory where a file is, says that nothing is
there and then leads to what is. -/
namespace ApiHandbook.Files

section Success
variable {disk disk' made : Disk} {path page out : String} {target : Location}

theorem exportPage_ok {force : Bool} (h : exportPage path page force disk = .ok out disk') :
    (disk.exists? (Path.ofString path) = true → force = true) ∧ ∃ target made, destination path disk = .ok target made ∧
      ¬ target <+: made.here ∧ made.placeDirectory target [(pageName, .file page.toUTF8)] = .ok disk' := by
  rw [exportPage, Action.bind_ok] at h
  obtain ⟨_, _, hget, h⟩ := h
  cases hget
  split_ifs at h with hexists
  · exact absurd h nofun
  obtain ⟨target, made, hdestination, h⟩ := Action.bind_ok.mp h
  obtain ⟨_, _, hget, h⟩ := Action.bind_ok.mp h
  cases hget
  dsimp only at h
  split_ifs at h with hprefix
  · exact absurd h nofun
  obtain ⟨_, _, hchange, h⟩ := Action.bind_ok.mp h
  cases h
  refine ⟨fun hthere => ?_, target, made, hdestination, fun hbelow => hprefix (List.isPrefixOf_iff_prefix.mpr hbelow),
    change_ok.mp hchange⟩
  rw [hthere, Bool.true_and, Bool.not_eq_true', Bool.not_eq_false] at hexists
  exact hexists

theorem destination_ok (h : destination path disk = .ok target made) :
    disk.locate (Path.ofString path) = .ok target ∧ made = disk ∨
      ∃ name directory, (Path.ofText path.toList).fileName? = some name ∧
        ensureDirectories (Path.ofText path.toList).holder disk = .ok () made ∧
        made.locate (Path.ofText path.toList).holder = .ok directory ∧ target = directory ++ [String.ofList name] := by
  rw [destination, Action.bind_ok] at h
  obtain ⟨_, _, hget, h⟩ := h
  cases hget
  cases hlocate : disk.locate (Path.ofString path) with
  | ok location =>
    simp only [hlocate] at h
    cases h
    exact .inl ⟨rfl, rfl⟩
  | error fault =>
    simp only [hlocate] at h
    cases hname : (Path.ofText path.toList).fileName? with
    | none =>
      simp only [hname] at h
      exact absurd h nofun
    | some name =>
      simp only [hname, Action.bind_ok] at h
      obtain ⟨_, between, hensure, _, _, hget, h⟩ := h
      cases hget
      cases hholder : between.locate (Path.ofText path.toList).holder with
      | error fault => exact absurd (hholder ▸ h) nofun
      | ok directory =>
        rw [hholder] at h
        cases h
        exact .inr ⟨name, directory, rfl, hensure, hholder, rfl⟩

theorem placeDirectory_ok {entries : List (String × Node)} (h : disk.placeDirectory target entries = .ok disk') :
    disk' = disk.insert target (.directory entries) ∧ ∃ place,
      disk.place false ⟨true, target.map String.toList⟩ = .ok place ∧
      (disk.exists? ⟨true, target.map String.toList⟩ = false → ∃ directory name, place = .free directory name) := by
  rw [Disk.placeDirectory] at h
  cases hplace : disk.place false ⟨true, target.map String.toList⟩ with
  | error fault =>
    simp only [hplace] at h
    exact absurd h nofun
  | ok place =>
    simp only [hplace] at h
    cases place with
    | free directory name =>
      cases h
      exact ⟨rfl, _, rfl, fun _ => ⟨directory, name, rfl⟩⟩
    | taken location =>
      change (if disk.exists? _ = true then _ else _) = _ at h
      split_ifs at h with hexists
      cases h
      exact ⟨rfl, _, rfl, fun hmissing => absurd (hexists.symm.trans hmissing) nofun⟩

end Success

/-- Whether a path that leads nowhere says that nothing stands under its name: it ends in a name, goes up only if the
directory above that name is there, and does not end after too many links. -/
structure Disk.Tells (disk : Disk) (path : String) : Prop where
  name : (Path.ofString path).fileName? ≠ none
  up : ['.', '.'] ∈ (Path.ofString path).steps →
    ∃ directory, disk.locate (Path.ofText path.toList).holder = .ok directory
  links : disk.place true (Path.ofString path) ≠ .error .tooManyLinks

theorem Disk.Reaches.of_holder {disk : Disk} {p : Path} {above : List (List Char)} {name : List Char}
    {directory : Location} (hsteps : p.steps = above ++ [name]) (hsound : disk.Sound)
    (h : disk.Reaches p.holder directory) :
    disk.Reaches ⟨p.absolute, above⟩ directory := by
  rcases Path.holder_eq hsteps with heq | ⟨heq, habsolute, rfl⟩
  · exact heq ▸ h
  · have hhere : disk.Reaches ⟨false, [['.']]⟩ disk.here := ⟨0, Nat.zero_le _, .move hsound.here .stay .done⟩
    obtain rfl := hhere.unique (heq ▸ h)
    exact ⟨0, Nat.zero_le _, habsolute ▸ .done⟩

/-- A path that ends in a name leads to the name in the directory above, with the links left that are not needed on the
way there. -/
theorem Disk.place_ofString {disk : Disk} {path : String} {directory : Location} {name : List Char} (hsound : disk.Sound)
    (hwalked : (Path.ofString path).fileName? ≠ none) (hname : (Path.ofText path.toList).fileName? = some name)
    (hlocate : disk.locate (Path.ofText path.toList).holder = .ok directory)
    (hdirectory : disk.root.kind? directory = some .directory) (hnul : '\x00' ∉ name) :
    ∃ links ≤ linkLimit,
      disk.place true (Path.ofString path) = walk disk.root true (linkLimit - links) directory [name] := by
  obtain ⟨above, hsteps, -, -⟩ := Path.fileName?_eq_some_iff.mp hname
  obtain ⟨above', hsteps', hundotted⟩ : ∃ above', (Path.ofString path).steps = above' ++ [name] ∧
      Undotted above' above := Path.walked_eq hwalked hsteps
  obtain ⟨links, hlinks, hleads⟩ := (Disk.reaches_of_locate hlocate).of_holder hsteps hsound
  have hstart : startOf disk.here ⟨(Path.ofText path.toList).absolute, above⟩ =
      startOf disk.here (Path.ofString path) := by
    rw [startOf, startOf, Path.absolute_ofText]
    rfl
  have hnul' : ∀ step ∈ (Path.ofString path).steps, '\x00' ∉ step := by
    intro step hstep
    rw [hsteps', List.mem_append, List.mem_singleton] at hstep
    rcases hstep with hstep | rfl
    · rcases hundotted.mem_or hstep with rfl | hstep
      · decide
      · exact (Disk.place_ok (Disk.place_of_locate hlocate)).1 step (Path.mem_holder_of_mem hsteps hstep)
    · exact hnul
  refine ⟨links, hlinks, ?_⟩
  rw [Disk.place_eq hnul' (.inr (by simp [hsteps'])), hsteps', ← hstart]
  exact (hundotted.leads hdirectory hleads).walk_append hlinks (.inl rfl)

section Free
variable {disk made disk' : Disk} {path : String} {directory : Location} {name : List Char}
  {entries : List (String × Node)} (hsound : disk.Sound) (htells : disk.Tells path)
  (hmissing : disk.exists? (Path.ofString path) = false) (hname : (Path.ofText path.toList).fileName? = some name)
include hsound htells hmissing hname

/-- Nothing stands under the name of a path that tells so in a directory that was there before. -/
theorem free_of_old (hlocate : disk.locate (Path.ofText path.toList).holder = .ok directory)
    (hdirectory : disk.root.kind? directory = some .directory)
    (hplaced : disk.placeDirectory (directory ++ [String.ofList name]) entries = .ok disk') :
    disk.root.kind? (directory ++ [String.ofList name]) = none := by
  obtain ⟨-, place, hplace, hfree⟩ := placeDirectory_ok hplaced
  obtain ⟨hnul, -⟩ := Disk.place_ok hplace
  have hbelow (fl : Bool) : disk.place fl ⟨true, (directory ++ [String.ofList name]).map String.toList⟩ =
      walk disk.root fl linkLimit directory [name] := by
    rw [Disk.place_below ((Disk.reaches_of_locate hlocate).proper hsound) hdirectory hnul, String.toList_ofList]
  have hnul' : '\x00' ∉ name :=
    hnul name (List.mem_map.mpr ⟨_, List.mem_append_right _ List.mem_cons_self, String.toList_ofList⟩)
  obtain ⟨links, -, hwalk⟩ := Disk.place_ofString hsound htells.name hname hlocate hdirectory hnul'
  have hsame : disk.place true ⟨true, (directory ++ [String.ofList name]).map String.toList⟩ =
      disk.place true (Path.ofString path) := by
    rw [hbelow, hwalk]
    exact walk_mono (Nat.sub_le _ _) (hwalk ▸ htells.links)
  obtain ⟨directory', name', rfl⟩ := hfree ((Disk.exists?_congr hsame).trans hmissing)
  rw [hbelow] at hplace
  obtain ⟨above, _, hlast, -, hdone, -, -, hnone⟩ := leads_of_free hplace
  rw [← List.nil_append [name]] at hlast
  obtain ⟨rfl, hlast⟩ := List.append_inj' hlast rfl
  cases hdone
  rwa [List.singleton_injective hlast, String.ofList_toList]

/-- Nothing stands under the name of a path that tells so, whether the directory above it is new or old. -/
theorem free_of_tells (hensure : ensureDirectories (Path.ofText path.toList).holder disk = .ok () made)
    (hlocate : made.locate (Path.ofText path.toList).holder = .ok directory)
    (hplaced : made.placeDirectory (directory ++ [String.ofList name]) entries = .ok disk') :
    disk.root.kind? (directory ++ [String.ofList name]) = none := by
  obtain ⟨above, hsteps, -, -⟩ := Path.fileName?_eq_some_iff.mp hname
  obtain ⟨above', hwalked, hundotted⟩ : ∃ above', (Path.ofString path).steps = above' ++ [name] ∧
      Undotted above' above := Path.walked_eq htells.name hsteps
  obtain ⟨hhere, hgrown, location, hreaches, -, hbefore⟩ := ensureDirectories_ok hsound hensure
  obtain rfl := (Disk.reaches_of_locate hlocate).unique hreaches
  have hold : disk.Reaches (Path.ofText path.toList).holder directory ∨ disk.root.kind? directory = none := by
    by_cases hup : ['.', '.'] ∈ (Path.ofText path.toList).holder.steps
    · have hmem : ['.', '.'] ∈ (Path.ofString path).steps := by
        rw [hwalked]
        exact List.mem_append_left _ (hundotted.mem (Path.mem_of_mem_holder hsteps (by decide) hup))
      obtain ⟨location, hlocation⟩ := htells.up hmem
      have hold := Disk.reaches_of_locate hlocation
      obtain rfl := hreaches.unique (hold.grown hhere hgrown)
      exact .inl hold
    · exact hbefore hup
  by_cases hdirectory : disk.root.kind? directory = some .directory
  · have hlocate' : disk.locate (Path.ofText path.toList).holder = .ok directory :=
      (hold.resolve_right (by rw [hdirectory]; exact nofun)).locate
        (Disk.place_ok (Disk.place_of_locate hlocate)).1 (Path.holder_ne _)
    cases (ensureDirectories_of_locate hlocate' hdirectory).symm.trans hensure
    exact free_of_old hsound htells hmissing hname hlocate' hdirectory hplaced
  · by_contra hthere
    exact hdirectory (Node.directory_of_below (List.cons_ne_nil _ []) hthere)

end Free

/-- A page that is exported without force is all that its directory holds. What stood elsewhere is kept, and nothing but
directories is added to it. Where the path tells what stands under its name, nothing stood where the page is written, so
that all that stood on the disk is kept. -/
theorem kept_of_unforced {disk disk' : Disk} {path page out : String} (hsound : disk.Sound)
    (h : exportPage path page false disk = .ok out disk') :
    disk'.Sound ∧ disk.exists? (Path.ofString path) = false ∧ ∃ target made, destination path disk = .ok target made ∧
      disk'.root.find? target = some (.directory [(pageName, .file page.toUTF8)]) ∧
      (∀ location, ¬ target <+: location → disk'.root.kind? location = disk.root.kind? location ∨
        disk.root.kind? location = none ∧ disk'.root.kind? location = some .directory) ∧
      (disk.Tells path → disk.root.find? target = none ∧
        ∀ location kind, disk.root.kind? location = some kind → disk'.root.kind? location = some kind) := by
  obtain ⟨hforce, target, made, hdestination, hbelow, hplaced⟩ := exportPage_ok h
  have hmissing : disk.exists? (Path.ofString path) = false :=
    Bool.eq_false_iff.mpr fun hexists => nomatch hforce hexists
  rcases destination_ok hdestination with ⟨hlocate, -⟩ | ⟨name, directory, hname, hensure, hlocate, rfl⟩
  · exact absurd ((Disk.exists?_of_locate hsound hlocate).symm.trans hmissing) nofun
  obtain ⟨hhere, hgrown, location, hreaches, hdirectory, -⟩ := ensureDirectories_ok hsound hensure
  obtain rfl := (Disk.reaches_of_locate hlocate).unique hreaches
  obtain ⟨rfl, -⟩ := placeDirectory_ok hplaced
  have hkept {location : Location} (hlocation : ¬ directory ++ [String.ofList name] <+: location) :
      (made.root.insert (directory ++ [String.ofList name]) (.directory [(pageName, .file page.toUTF8)])).kind?
        location = made.root.kind? location := Node.kind?_insert hdirectory _ hlocation _
  refine ⟨⟨?_, hhere ▸ hsound.names⟩, hmissing, _, made, hdestination, Node.find?_insert hdirectory _ _, ?_, ?_⟩
  · exact (hkept hbelow).trans (hgrown.kept (hhere ▸ hsound.here))
  · intro location hlocation
    exact (hkept hlocation).symm ▸ hgrown location
  intro htells
  have hfree := free_of_tells hsound htells hmissing hname hensure hlocate hplaced
  refine ⟨Node.kind?_eq_none_iff.mp hfree, fun location kind hkind => ?_⟩
  have hlocation : ¬ directory ++ [String.ofList name] <+: location := by
    rintro ⟨below, rfl⟩
    exact absurd (hkind.symm.trans (Node.kind?_append_eq_none hfree below)) nofun
  exact (hkept hlocation).trans (hgrown.kept hkind)

/-- A disk with a directory that holds one file. -/
def shelf : Disk := ⟨.directory [("doc", .directory [("notes.txt", .file "keep".toUTF8)])], []⟩

theorem notes_kept : shelf.Sound ∧ shelf.Tells "doc/../htmldoc" ∧
    Leaves (exportPage "doc/../htmldoc" "<html></html>" false shelf) fun _ disk =>
      disk.root.kind? ["doc", "notes.txt"] = some (.file "keep".toUTF8) ∧ ∃ target made,
        destination "doc/../htmldoc" shelf = .ok target made ∧ shelf.root.find? target = none ∧
        disk.root.find? target = some (.directory [(pageName, .file "<html></html>".toUTF8)]) := by
  have hsound : shelf.Sound := by decide +kernel
  have htells : shelf.Tells "doc/../htmldoc" := ⟨by decide +kernel, fun _ => ⟨[], by rfl⟩, by decide +kernel⟩
  obtain ⟨out, disk, hrun, -⟩ : Leaves (exportPage "doc/../htmldoc" "<html></html>" false shelf) fun _ _ => True := by
    decide +kernel
  obtain ⟨-, -, target, made, hdestination, hpage, -, hold⟩ := kept_of_unforced hsound hrun
  obtain ⟨hfree, hkept⟩ := hold htells
  exact ⟨hsound, htells, out, disk, hrun, hkept _ _ (by rfl), target, made, hdestination, hfree, hpage⟩

/-- A path that goes up from a directory that is not there yet says that nothing stands where it leads, and then leads
to a directory, which the page replaces with all it holds. -/
theorem notes_lost : shelf.Sound ∧ Leaves (destination "site/../doc" shelf) (fun target _ => target = ["doc"]) ∧
    shelf.root.kind? ["doc"] = some .directory ∧ shelf.root.kind? ["doc", "notes.txt"] = some (.file "keep".toUTF8) ∧
    Leaves (exportPage "site/../doc" "<html></html>" false shelf) fun _ disk =>
      disk.root.kind? ["doc", "notes.txt"] = none := by
  decide +kernel

-- So does a path that asks for a directory where a file is.
example : Leaves (exportPage "doc/notes.txt/" "<html></html>" false shelf) fun _ disk =>
    disk.root.kind? ["doc", "notes.txt"] = some .directory := by decide +kernel

end ApiHandbook.Files
