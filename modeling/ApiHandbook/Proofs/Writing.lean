import ApiHandbook.Proofs.Edits
import ApiHandbook.Proofs.Exports
import ApiHandbook.Proofs.Parents
import ApiHandbook.Proofs.Scratch

/-! Files that are written: as a whole or not at all, with nothing else changed. -/
namespace ApiHandbook.Files

namespace Disk
variable {disk disk' : Disk} {path content : String} {force : Bool} {spot : Location}

/-- Where a file is put that takes the place of what a path leads to. -/
def fileSpot (disk : Disk) (path : String) (force : Bool) : Except FileFault Location :=
  let p := Path.spelled path.toList
  let asksDirectory := path.toList.getLast? = some '/'
  match disk.place false p with
  | .error fault => .error fault
  | .ok (.free directory name) => if asksDirectory then .error .notADirectory else .ok (directory ++ [name])
  | .ok (.taken location) =>
    if !force then .error .alreadyExists
    else if p.fileName?.isNone then .error .resourceBusy
    else if asksDirectory then .error .notADirectory
    else if disk.root.kind? location = some .directory then .error .isADirectory
    else .ok location

theorem placeFile_eq (disk : Disk) (path : String) (content : ByteArray) (force : Bool) :
    disk.placeFile path content force = (disk.fileSpot path force).map fun spot => disk.insert spot (.file content) := by
  rw [placeFile, fileSpot]
  cases disk.place false (Path.spelled path.toList) with
  | error fault => rfl
  | ok place =>
    cases place with
    | free directory name =>
      change ite _ _ _ = Except.map _ (ite _ _ _)
      split_ifs <;> rfl
    | taken location =>
      change ite _ _ _ = Except.map _ (ite _ _ _)
      split_ifs with hforce hname hslash hkind
      · rfl
      · rfl
      · rfl
      · obtain ⟨entries, hentries⟩ := Node.kind?_eq_directory_iff.mp hkind
        rw [hentries]
        rfl
      · split
        · exact absurd (Node.kind?_eq_directory_iff.mpr ⟨_, ‹_›⟩) hkind
        · rfl

/-- Whether a path ends in a name, and its steps up to that name lead to a directory. -/
structure EndsAt (disk : Disk) (p : Path) (directory : Location) (name : String) : Prop where
  last : p.steps.getLast? = some name.toList
  proper : Proper name
  nul : ∀ step ∈ p.steps, '\x00' ∉ step
  reaches : disk.Reaches ⟨p.absolute, p.steps.dropLast⟩ directory
  directory : disk.root.kind? directory = some .directory

section Ends
variable {p : Path} {directory location : Location} {name : String} {kind : Kind}

namespace EndsAt

theorem steps (h : disk.EndsAt p directory name) : p.steps.dropLast ++ [name.toList] = p.steps :=
  List.dropLast_append_getLast? _ h.last

theorem unique {directory' : Location} {name' : String} (h : disk.EndsAt p directory name)
    (h' : disk.EndsAt p directory' name') : directory = directory' ∧ name = name' :=
  ⟨h.reaches.unique h'.reaches, String.toList_inj.mp (Option.some.inj (h.last.symm.trans h'.last))⟩

theorem carried (h : disk.EndsAt p directory name) (hhere : disk'.here = disk.here)
    (hways : SameWays disk.root disk'.root) : disk'.EndsAt p directory name := by
  obtain ⟨links, hlinks, hleads⟩ := h.reaches
  exact ⟨h.last, h.proper, h.nul, ⟨links, hlinks, hhere ▸ hleads.carried hways h.directory⟩,
    hways _ .directory nofun h.directory⟩

theorem place_eq (h : disk.EndsAt p directory name) : ∃ links ≤ linkLimit,
    disk.place false p = walk disk.root false (linkLimit - links) directory [name.toList] := by
  obtain ⟨links, hlinks, hleads⟩ := h.reaches
  have hsteps : p.steps ≠ [] := fun hnil => by simpa [hnil] using h.last
  refine ⟨links, hlinks, ?_⟩
  rw [Disk.place_eq h.nul (.inr hsteps), ← h.steps]
  exact hleads.walk_append hlinks (.inr (List.cons_ne_nil _ []))

theorem place_free (h : disk.EndsAt p directory name) (hfree : disk.root.kind? (directory ++ [name]) = none) :
    disk.place false p = .ok (.free directory name) := by
  obtain ⟨links, -, hplace⟩ := h.place_eq
  rw [hplace, walk_name h.directory h.proper, hfree]
  rfl

/-- What is no link is where its path leads. -/
theorem locate (h : disk.EndsAt p directory name) (hkind : disk.root.kind? (directory ++ [name]) = some kind)
    (hlink : ∀ target, kind ≠ .link target) : disk.locate p = .ok (directory ++ [name]) := by
  obtain ⟨links, hlinks, hleads⟩ := h.reaches
  have hreaches : disk.Reaches p (directory ++ [name]) := by
    refine ⟨links, hlinks, ?_⟩
    rw [← h.steps]
    exact hleads.append (.move h.directory (.down h.proper hkind hlink) .done)
  have hsteps : p.steps ≠ [] := fun hnil => by simpa [hnil] using h.last
  exact hreaches.locate h.nul (.inr hsteps)

theorem find? (h : disk.EndsAt p directory name) {content : ByteArray}
    (hfile : disk.root.kind? (directory ++ [name]) = some (.file content)) :
    disk.find? p = some (.file content) := by
  have hlocate : disk.locate p = .ok (directory ++ [name]) := h.locate hfile nofun
  obtain ⟨node, hnode, hkind⟩ := Option.map_eq_some_iff.mp hfile
  rw [Disk.find?, hlocate]
  cases node with
  | file _ =>
    rw [Kind.file.inj hkind] at hnode
    exact hnode
  | _ => cases hkind

end EndsAt

theorem endsAt_of_free (h : disk.place false p = .ok (.free directory name)) :
    disk.EndsAt p directory name ∧ disk.root.kind? (directory ++ [name]) = none := by
  obtain ⟨hnul, hwalk⟩ := place_ok h
  obtain ⟨above, links, hsteps, hlinks, hleads, hproper, hdirectory, hfree⟩ := leads_of_free hwalk
  refine ⟨⟨by simp [hsteps], hproper, hnul, ⟨links, hlinks, ?_⟩, hdirectory⟩, hfree⟩
  rwa [hsteps, List.dropLast_concat]

theorem endsAt_of_taken (hname : p.fileName? = some name.toList) (h : disk.place false p = .ok (.taken location)) :
    ∃ directory, disk.EndsAt p directory name ∧ location = directory ++ [name] := by
  obtain ⟨above, hsteps, hstay, hup⟩ := Path.fileName?_eq_some_iff.mp hname
  obtain ⟨hnul, hwalk⟩ := place_ok h
  rw [hsteps] at hwalk
  obtain ⟨directory, links, hlinks, hleads, hproper, hdirectory, rfl⟩ :=
    leads_of_taken ⟨fun heq => hstay (by rw [heq]; rfl), fun heq => hup (by rw [heq]; rfl)⟩ hwalk
  refine ⟨directory, ⟨by simp [hsteps], hproper, hnul, ⟨links, hlinks, ?_⟩, hdirectory⟩, rfl⟩
  rwa [hsteps, List.dropLast_concat]

theorem endsAt_of_locate (hlast : p.steps.getLast? = some name.toList) (hproper : Proper name)
    (h : disk.locate p = .ok location) : ∃ directory, disk.EndsAt p directory name := by
  obtain ⟨links, hlinks, hleads⟩ := reaches_of_locate h
  rw [← List.dropLast_append_getLast? _ hlast] at hleads
  obtain ⟨directory, i, j, habove, hname, hij⟩ := hleads.split
  have hnul := (place_ok (place_of_locate h)).1
  exact ⟨directory, hlast, hproper, hnul, ⟨i, by omega, habove⟩, hname.directory_of_cons⟩

end Ends

/-- Where a file is put, the path ends, and there is no directory. Without force nothing is there. -/
theorem fileSpot_ok (h : disk.fileSpot path force = .ok spot) : path.toList.getLast? ≠ some '/' ∧ ∃ directory name,
    disk.EndsAt (Path.spelled path.toList) directory name ∧ spot = directory ++ [name] ∧
      disk.root.kind? spot ≠ some .directory ∧ (force = false → disk.root.kind? spot = none) := by
  rw [fileSpot] at h
  cases hplace : disk.place false (Path.spelled path.toList) with
  | error fault =>
    rw [hplace] at h
    cases h
  | ok place =>
    simp only [hplace] at h
    cases place with
    | free directory name =>
      simp only at h
      split_ifs at h with hslash
      obtain rfl := Except.ok.inj h
      obtain ⟨hends, hfree⟩ := endsAt_of_free hplace
      exact ⟨hslash, directory, name, hends, rfl, by rw [hfree]; exact nofun, fun _ => hfree⟩
    | taken location =>
      simp only at h
      split_ifs at h with hforce hname hslash hkind
      obtain rfl := Except.ok.inj h
      obtain ⟨last, hlast⟩ := Option.ne_none_iff_exists'.mp fun hnone => hname (Option.isNone_iff_eq_none.mpr hnone)
      rw [← String.toList_ofList (l := last)] at hlast
      obtain ⟨directory, hends, rfl⟩ := endsAt_of_taken hlast hplace
      refine ⟨hslash, directory, String.ofList last, hends, rfl, hkind, fun hunforced => ?_⟩
      exact absurd (by rw [hunforced]; rfl) hforce

theorem fileSpot_congr
    (hplace : disk'.place false (Path.spelled path.toList) = disk.place false (Path.spelled path.toList))
    (hkind : ∀ directory name, disk.EndsAt (Path.spelled path.toList) directory name →
      disk'.root.kind? (directory ++ [name]) = disk.root.kind? (directory ++ [name])) :
    disk'.fileSpot path force = disk.fileSpot path force := by
  rw [fileSpot, fileSpot, hplace]
  cases h : disk.place false (Path.spelled path.toList) with
  | error fault => rfl
  | ok place =>
    cases place with
    | free directory name => rfl
    | taken location =>
      cases hlast : (Path.spelled path.toList).fileName? with
      | none => simp only [Option.isNone_none, if_true]
      | some last =>
        rw [← String.toList_ofList (l := last)] at hlast
        obtain ⟨directory, hends, rfl⟩ := endsAt_of_taken hlast h
        simp only [hkind directory _ hends]

end Disk

section Run
variable (disk : Disk) (path content : String) (force : Bool)

theorem writeNewFile_eq : writeNewFile path content force disk =
    if disk.exists? (Path.ofString path) && !force then .error (.targetExists path) disk
    else match ensureDirectories (Path.ofText path.toList).holder disk with
      | .error failure made => .error failure made
      | .ok _ made => match made.placeFile path content.toUTF8 force with
        | .ok disk' => .ok () disk'
        | .error fault => .error (placingFailure path fault) made := by
  simp only [writeNewFile, Action.run_bind, Action.run_get]
  cases hguard : disk.exists? (Path.ofString path) && !force with
  | true => rfl
  | false =>
    simp only [Bool.false_eq_true, if_false, Action.run_bind, Action.run_get]
    cases ensureDirectories (Path.ofText path.toList).holder disk with
    | error failure made => rfl
    | ok _ made =>
      simp only
      cases made.placeFile path content.toUTF8 force with
      | ok disk' => rfl
      | error fault => cases fault <;> rfl

theorem writeInSteps_eq (temporary : String) : writeInSteps temporary path content force disk =
    if disk.exists? (Path.ofString path) && !force then .error (.targetExists path) disk
    else match ensureDirectories (Path.ofText path.toList).holder disk with
      | .error failure made => .error failure made
      | .ok _ made => match made.locate (Path.ofText path.toList).holder with
        | .error fault => .error (.file fault) made
        | .ok directory =>
          let source := directory ++ [temporary]
          let staged := (made.insert source (.file ⟨#[]⟩)).insert source (.file content.toUTF8)
          match staged.moveFile source path force with
          | .ok disk' => .ok () disk'
          | .error fault => .error (placingFailure path fault) (staged.remove source) := by
  simp only [writeInSteps, Action.run_bind, Action.run_get]
  cases hguard : disk.exists? (Path.ofString path) && !force with
  | true => rfl
  | false =>
    simp only [Bool.false_eq_true, if_false, Action.run_bind, Action.run_get]
    cases ensureDirectories (Path.ofText path.toList).holder disk with
    | error failure made => rfl
    | ok _ made =>
      simp only
      cases made.locate (Path.ofText path.toList).holder with
      | error fault => rfl
      | ok directory =>
        simp only [Action.run_bind, Action.run_modify, Action.run_get]
        split <;> simp only [Action.run_bind, Action.run_modify, *]
        · rfl
        · rfl

end Run

section Steps
variable {disk made : Disk} {path content : String} {force : Bool} {directory : Location} {name temporary : String}

/-- A file is put in the directory that is made for it. -/
theorem Disk.EndsAt.holder (hends : made.EndsAt (Path.spelled path.toList) directory name) (hsound : made.Sound)
    (hslash : path.toList.getLast? ≠ some '/') {above : Location}
    (hlocate : made.locate (Path.ofText path.toList).holder = .ok above)
    (habove : made.root.kind? above = some .directory) :
    above = directory ∧ (Path.ofText path.toList).fileName? = some name.toList := by
  have hstay : name.toList ≠ ['.'] := fun heq => hends.proper.1 (String.toList_inj.mp heq)
  have hup : name.toList ≠ ['.', '.'] := fun heq => hends.proper.2.1 (String.toList_inj.mp heq)
  have hundotted := Path.undotted_ofText path.toList
  rw [show Path.walked path.toList = Path.spelled path.toList from Path.ofString_eq hslash, ← hends.steps] at hundotted
  obtain ⟨steps, hsteps, hrest⟩ := hundotted.split_last hstay
  refine ⟨?_, Path.fileName?_eq_some_iff.mpr ⟨steps, hsteps, hstay, hup⟩⟩
  obtain ⟨links, hlinks, hleads⟩ := (Disk.reaches_of_locate hlocate).of_holder hsteps hsound
  have hstart : startOf made.here ⟨(Path.ofText path.toList).absolute, steps⟩ =
      startOf made.here ⟨(Path.spelled path.toList).absolute, (Path.spelled path.toList).steps.dropLast⟩ := by
    rw [startOf, startOf, Path.absolute_ofText, ← Path.ofString_eq hslash]
    rfl
  exact Disk.Reaches.unique ⟨links, hlinks, hrest.leads habove (hstart ▸ hleads)⟩ hends.reaches

/-- What is at a temporary name does not change where a file is put. -/
theorem fileSpot_insert (hsound : made.Sound) (hunused : made.Unused temporary (Path.spelled path.toList))
    (hdirectory : made.root.kind? directory = some .directory) (node : Node) :
    (made.insert (directory ++ [temporary]) node).fileSpot path force = made.fileSpot path force := by
  have hsame (location : Location) (hlocation : ¬ directory ++ [temporary] <+: location) :
      (made.insert (directory ++ [temporary]) node).root.kind? location = made.root.kind? location :=
    Node.kind?_insert hdirectory temporary hlocation node
  have hhere : (made.insert (directory ++ [temporary]) node).here = made.here := rfl
  have hplace := Disk.place_hidden hunused hsound hhere hsame false
  refine Disk.fileSpot_congr hplace fun above last hends => hsame _ fun hbelow => ?_
  rcases List.prefix_concat_iff.mp hbelow with heq | hbelow
  · obtain rfl := List.singleton_injective (List.append_inj' heq rfl).2
    exact hunused.path (List.mem_of_getLast? hends.last)
  · exact hunused.not_below (by rw [hends.directory]; exact nofun) hbelow

/-- A file that is moved from a temporary name ends up where it is put at once. -/
theorem moveFile_staged (hsound : made.Sound) (hunused : made.Unused temporary (Path.spelled path.toList))
    (hlocate : made.locate (Path.ofText path.toList).holder = .ok directory)
    (hdirectory : made.root.kind? directory = some .directory) (content : ByteArray) :
    (made.insert (directory ++ [temporary]) (.file content)).moveFile (directory ++ [temporary]) path force =
      made.placeFile path content force := by
  have hsource : (made.insert (directory ++ [temporary]) (.file content)).root.find? (directory ++ [temporary]) =
      some (.file content) := Node.find?_insert hdirectory temporary _
  rw [Disk.moveFile, hsource]
  simp only [Disk.placeFile_eq, fileSpot_insert hsound hunused hdirectory]
  cases hspot : made.fileSpot path force with
  | error fault => rfl
  | ok spot =>
    obtain ⟨hslash, above, name, hends, rfl, -, -⟩ := Disk.fileSpot_ok hspot
    obtain ⟨rfl, -⟩ := hends.holder hsound hslash hlocate hdirectory
    have hne : name ≠ temporary := fun heq => hunused.path (heq ▸ List.mem_of_getLast? hends.last)
    have hmoved : ((made.insert (directory ++ [temporary]) (.file content)).insert (directory ++ [name])
        (.file content)).remove (directory ++ [temporary]) = made.insert (directory ++ [name]) (.file content) :=
      congrArg (Disk.mk · made.here)
        (Node.remove_insert_insert hdirectory (hunused.entries directory) hne _ _)
    simp only [Except.map, hmoved]

/-- A file that is written under an unused name first has the outcome of one that is put at its path at once; where it
cannot be put, the name is free again. -/
theorem writeInSteps_eq_writeNewFile (hsound : disk.Sound) (hunused : disk.Unused temporary (Path.ofString path)) :
    writeInSteps temporary path content force disk = writeNewFile path content force disk := by
  rw [writeInSteps_eq, writeNewFile_eq]
  split_ifs
  · rfl
  cases hensure : ensureDirectories (Path.ofText path.toList).holder disk with
  | error failure made => rfl
  | ok _ made =>
    have hpaved := paved_of_ensureDirectories hensure
    obtain ⟨directory, hlocate, hdirectory⟩ := locate_of_ensureDirectories hsound (Path.holder_ne _) hensure
    have hstay : temporary.toList ≠ ['.'] := fun heq => hunused.proper.1 (String.toList_inj.mp heq)
    have hmade := hunused.paved hpaved fun hmem => hunused.path (Path.mem_of_mem_holder_ofText hstay hmem)
    have hspelled : made.Unused temporary (Path.spelled path.toList) :=
      { hmade with path := fun hmem => hunused.path (Path.mem_of_mem_spelled hmem) }
    have hstaged : (made.insert (directory ++ [temporary]) (.file ⟨#[]⟩)).insert (directory ++ [temporary])
        (.file content.toUTF8) = made.insert (directory ++ [temporary]) (.file content.toUTF8) :=
      congrArg (Disk.mk · made.here) (Node.insert_insert hdirectory _ _)
    have hundone : (made.insert (directory ++ [temporary]) (.file content.toUTF8)).remove (directory ++ [temporary]) =
        made := congrArg (Disk.mk · made.here) (Node.remove_insert hdirectory (hmade.entries directory) _)
    simp only [hlocate, hstaged, hundone, moveFile_staged (hpaved.sound hsound) hspelled hlocate hdirectory]

end Steps

/-- What a file that is written leaves on the disk: nothing is added to it but directories on the way and the file under
its name in the last of them, and nothing is changed but a file or a link of that name, if that is forced. -/
structure WrittenAt (disk made disk' : Disk) (path content : String) (force : Bool) (directory : Location)
    (name : String) : Prop where
  paved : disk.Paved (Path.ofText path.toList).holder made
  holder : made.locate (Path.ofText path.toList).holder = .ok directory
  fileName : (Path.ofText path.toList).fileName? = some name.toList
  here : disk'.here = disk.here
  file : disk'.root.kind? (directory ++ [name]) = some (.file content.toUTF8)
  others : ∀ location, location ≠ directory ++ [name] → disk'.root.kind? location = made.root.kind? location
  noDirectory : made.root.kind? (directory ++ [name]) ≠ some .directory
  free : force = false → disk.root.kind? (directory ++ [name]) = none
  found : force = false → disk'.find? (Path.ofString path) = some (.file content.toUTF8)
  /-- The path leads to the file if it leads to its place while nothing is there. -/
  found_iff : disk'.find? (Path.ofString path) = some (.file content.toUTF8) ↔
    (made.remove (directory ++ [name])).place false (Path.spelled path.toList) = .ok (.free directory name)

section Written
variable {disk made disk' : Disk} {path content out : String} {force : Bool} {directory : Location} {name : String}

theorem writeNewFile_ok (h : writeNewFile path content force disk = .ok () disk') : ∃ made spot,
    ensureDirectories (Path.ofText path.toList).holder disk = .ok () made ∧ made.fileSpot path force = .ok spot ∧
      disk' = made.insert spot (.file content.toUTF8) := by
  rw [writeNewFile_eq] at h
  split_ifs at h
  cases hensure : ensureDirectories (Path.ofText path.toList).holder disk with
  | error failure made =>
    rw [hensure] at h
    cases h
  | ok _ made =>
    simp only [hensure, Disk.placeFile_eq] at h
    cases hspot : made.fileSpot path force with
    | error fault =>
      rw [hspot] at h
      cases h
    | ok spot =>
      rw [hspot] at h
      cases h
      exact ⟨made, spot, rfl, hspot, rfl⟩

theorem paved_of_writeNewFile {failure : Failure} (h : writeNewFile path content force disk = .error failure disk') :
    disk.Paved (Path.ofText path.toList).holder disk' := by
  have hpaved := paved_ensureDirectories disk (Path.ofText path.toList).holder
  rw [writeNewFile_eq] at h
  split_ifs at h
  · cases h
    exact .refl disk _
  cases hensure : ensureDirectories (Path.ofText path.toList).holder disk with
  | error failure made =>
    rw [hensure] at h hpaved
    cases h
    exact hpaved
  | ok _ made =>
    rw [hensure] at h hpaved
    cases hplace : made.placeFile path content.toUTF8 force with
    | error fault =>
      simp only [hplace] at h
      cases h
      exact hpaved
    | ok disk' =>
      simp only [hplace] at h
      cases h

theorem writeNewFile_of_exportDocument (h : exportDocument path content force disk = .ok out disk') :
    writeNewFile path content force disk = .ok () disk' := by
  rw [exportDocument] at h
  obtain ⟨_, _, hwrite, h⟩ := Action.bind_ok.mp h
  cases h
  exact hwrite

theorem writeNewFile_of_exportDocument_error {failure : Failure}
    (h : exportDocument path content force disk = .error failure disk') :
    writeNewFile path content force disk = .error failure disk' := by
  rw [exportDocument, Action.run_bind] at h
  cases hwrite : writeNewFile path content force disk with
  | error _ _ =>
    rw [hwrite] at h
    cases h
    rfl
  | ok _ _ =>
    rw [hwrite] at h
    cases h

section Replaced
variable (hdirectory : made.root.kind? directory = some .directory)
  (hkind : made.root.kind? (directory ++ [name]) ≠ some .directory)
include hdirectory hkind

/-- A file that takes the place of no directory changes nothing but its place. -/
theorem kind?_insert_file (content : ByteArray) {location : Location} (h : location ≠ directory ++ [name]) :
    (made.insert (directory ++ [name]) (.file content)).root.kind? location = made.root.kind? location :=
  Node.kind?_eq_of_ne hkind (by rw [Disk.insert, Node.kind?_insert_self hdirectory]; exact nofun)
    (fun _ hbelow => Node.kind?_insert hdirectory name hbelow _) h

theorem kind?_remove_of_ne {location : Location} (h : location ≠ directory ++ [name]) :
    (made.remove (directory ++ [name])).root.kind? location = made.root.kind? location :=
  Node.kind?_eq_of_ne hkind (by rw [Disk.remove, Node.kind?_remove_self hdirectory]; exact nofun)
    (fun _ hbelow => Node.kind?_remove hdirectory hbelow) h

/-- A path that ends at a file's place leads to the file that is put there if it leads to the place while nothing is
there: otherwise it goes through a link that the file replaces. -/
theorem find?_insert_iff {p : Path} (hends : made.EndsAt p directory name) (content : ByteArray) :
    (made.insert (directory ++ [name]) (.file content)).find? p = some (.file content) ↔
      (made.remove (directory ++ [name])).place false p = .ok (.free directory name) := by
  have hfile : (made.insert (directory ++ [name]) (.file content)).root.kind? (directory ++ [name]) =
      some (.file content) := Node.kind?_insert_self hdirectory name _
  have hnone : (made.remove (directory ++ [name])).root.kind? (directory ++ [name]) = none :=
    Node.kind?_remove_self hdirectory
  have hsame (location : Location) (hne : location ≠ directory ++ [name]) :
      (made.remove (directory ++ [name])).root.kind? location =
        (made.insert (directory ++ [name]) (.file content)).root.kind? location :=
    (kind?_remove_of_ne hdirectory hkind hne).trans (kind?_insert_file hdirectory hkind content hne).symm
  constructor
  · intro hfind
    obtain ⟨location, hlocate, -⟩ := Disk.locate_of_find? hfind
    obtain ⟨above, habove⟩ := Disk.endsAt_of_locate hends.last hends.proper hlocate
    have hremoved : (made.remove (directory ++ [name])).EndsAt p above name :=
      habove.carried rfl (.of_ne hsame fun kind hthere => ⟨content, Option.some.inj (hthere.symm.trans hfile)⟩)
    have hmade : made.EndsAt p above name :=
      hremoved.carried rfl (.of_ne (fun _ hne => (kind?_remove_of_ne hdirectory hkind hne).symm)
        fun kind hthere => nomatch hnone.symm.trans hthere)
    obtain rfl := (hends.unique hmade).1
    exact hremoved.place_free hnone
  · intro hfree
    have hput : (made.insert (directory ++ [name]) (.file content)).EndsAt p directory name :=
      (Disk.endsAt_of_free hfree).1.carried rfl (.of_ne (fun location hne => (hsame location hne).symm)
        fun kind hthere => nomatch hnone.symm.trans hthere)
    exact hput.find? hfile

end Replaced

theorem writtenAt_of_writeNewFile (hsound : disk.Sound) (h : writeNewFile path content force disk = .ok () disk') :
    ∃ made directory name, WrittenAt disk made disk' path content force directory name := by
  obtain ⟨made, spot, hensure, hspot, rfl⟩ := writeNewFile_ok h
  have hpaved := paved_of_ensureDirectories hensure
  obtain ⟨directory, hlocate, hdirectory⟩ := locate_of_ensureDirectories hsound (Path.holder_ne _) hensure
  obtain ⟨hslash, above, name, hends, rfl, hkind, hfree⟩ := Disk.fileSpot_ok hspot
  obtain ⟨rfl, hname⟩ := hends.holder (hpaved.sound hsound) hslash hlocate hdirectory
  have hfile : (made.insert (directory ++ [name]) (.file content.toUTF8)).root.kind? (directory ++ [name]) =
      some (.file content.toUTF8) := Node.kind?_insert_self hdirectory name _
  have hothers (location : Location) (hne : location ≠ directory ++ [name]) :=
    kind?_insert_file hdirectory hkind content.toUTF8 hne
  refine ⟨made, directory, name, ⟨hpaved, hlocate, hname, hpaved.here, hfile, hothers, hkind, fun hunforced => ?_,
    fun hunforced => ?_, ?_⟩⟩
  · rcases hpaved.kept (directory ++ [name]) with heq | ⟨hnone, -⟩
    · exact heq.symm.trans (hfree hunforced)
    · exact hnone
  · have hput : (made.insert (directory ++ [name]) (.file content.toUTF8)).EndsAt (Path.spelled path.toList)
        directory name :=
      hends.carried rfl (.of_ne hothers fun kind hthere => nomatch (hfree hunforced).symm.trans hthere)
    rw [Path.ofString_eq hslash]
    exact hput.find? hfile
  · rw [Path.ofString_eq hslash]
    exact find?_insert_iff hdirectory hkind hends content.toUTF8

end Written

/-- A file is written as a whole or not at all: work that fails leaves the disk as it was but for directories on the way
to the file, and so does work that succeeds, but for the file. Without force nothing was at its place, and the path
leads to it; with force the path leads to it unless it went through a link that the file replaced. The way through a
temporary file has the same outcome. -/
theorem written_or_untouched {disk : Disk} (hsound : disk.Sound) (path content : String) (force : Bool) :
    (∀ failure disk', writeNewFile path content force disk = .error failure disk' ∨
      exportDocument path content force disk = .error failure disk' →
        disk.Paved (Path.ofText path.toList).holder disk') ∧
    (∀ disk', writeNewFile path content force disk = .ok () disk' ∨
      (∃ out, exportDocument path content force disk = .ok out disk') →
        ∃ made directory name, WrittenAt disk made disk' path content force directory name) ∧
    ∀ temporary, disk.Unused temporary (Path.ofString path) →
      writeInSteps temporary path content force disk = writeNewFile path content force disk := by
  refine ⟨fun failure disk' h => ?_, fun disk' h => ?_, fun temporary => writeInSteps_eq_writeNewFile hsound⟩
  · exact paved_of_writeNewFile (h.elim id writeNewFile_of_exportDocument_error)
  · exact writtenAt_of_writeNewFile hsound (h.elim id fun ⟨_, h⟩ => writeNewFile_of_exportDocument h)

theorem manual_written : shelf.Sound ∧
    Leaves (writeNewFile "doc/api/manual.md" "# Api" false shelf) (fun _ disk => ∃ made directory name,
      WrittenAt shelf made disk "doc/api/manual.md" "# Api" false directory name) ∧
    shelf.Unused ".tmpX4kq0Z" (Path.ofString "doc/api/manual.md") ∧
    writeInSteps ".tmpX4kq0Z" "doc/api/manual.md" "# Api" false shelf =
      writeNewFile "doc/api/manual.md" "# Api" false shelf := by
  have hsound : shelf.Sound := by decide +kernel
  have hunused : shelf.Unused ".tmpX4kq0Z" (Path.ofString "doc/api/manual.md") :=
    .of_mentions (by decide +kernel) (by decide +kernel) (by decide +kernel) (by decide +kernel)
  obtain ⟨_, disk, hrun, -⟩ : Leaves (writeNewFile "doc/api/manual.md" "# Api" false shelf) fun _ _ => True := by
    decide +kernel
  obtain ⟨-, hwritten, hsteps⟩ := written_or_untouched hsound "doc/api/manual.md" "# Api" false
  exact ⟨hsound, ⟨_, disk, hrun, hwritten disk (.inl hrun)⟩, hunused, hsteps _ hunused⟩

/-- A disk with an empty directory and a link to it. -/
def linked : Disk := ⟨.directory [("site", .directory []), ("doc.json", .link "site")], []⟩

/-- A file that replaces a link on its path's own way cannot be found by the path any more. -/
theorem lost_behind_link : linked.Sound ∧ Leaves (writeNewFile "doc.json/../doc.json" "{}" true linked) fun _ disk =>
    disk.root.kind? ["doc.json"] = some (.file "{}".toUTF8) ∧
      disk.exists? (Path.ofString "doc.json/../doc.json") = false := by
  decide +kernel

end ApiHandbook.Files
