import ApiHandbook.Proofs.Swaps
import ApiHandbook.Proofs.Writing

/-! Pages that are exported: alone in their directory, with nothing changed outside it, and never in the place of a
directory that holds the working directory. -/
namespace ApiHandbook.Files

section Run
variable (disk : Disk) (path page : String) (force : Bool)

theorem exportPage_eq : exportPage path page force disk =
    if disk.exists? (Path.ofString path) && !force then .error (.targetExists path) disk
    else match destination path disk with
      | .error failure made => .error failure made
      | .ok target made =>
        if target.isPrefixOf made.here then .error (.unsafeTarget path) made
        else match change (·.placeDirectory target [(pageName, .file page.toUTF8)]) made with
          | .error failure disk' => .error failure disk'
          | .ok _ disk' => .ok (String.ofList (entryPath path.toList pageName.toList)) disk' := by
  simp only [exportPage, Action.run_bind, Action.run_get]
  cases hguard : disk.exists? (Path.ofString path) && !force with
  | true => rfl
  | false =>
    simp only [Bool.false_eq_true, if_false, Action.run_bind, Action.run_get]
    cases destination path disk with
    | error failure made => rfl
    | ok target made =>
      simp only
      split_ifs
      · rfl
      · simp only [Action.run_bind]
        cases change (·.placeDirectory target [(pageName, .file page.toUTF8)]) made <;> rfl

theorem exportInSteps_eq (staging backup : String) : exportInSteps staging backup path page force disk =
    if disk.exists? (Path.ofString path) && !force then .error (.targetExists path) disk
    else match destination path disk with
      | .error failure made => .error failure made
      | .ok target made =>
        if target.isPrefixOf made.here then .error (.unsafeTarget path) made
        else
          let staged := target.dropLast ++ [staging]
          match moveInPlace staged (target.dropLast ++ [backup]) target
            ((made.insert staged (.directory [])).insert (staged ++ [pageName]) (.file page.toUTF8)) with
          | .error failure disk' => .error failure disk'
          | .ok _ disk' => .ok (String.ofList (entryPath path.toList pageName.toList)) disk' := by
  simp only [exportInSteps, Action.run_bind, Action.run_get]
  cases hguard : disk.exists? (Path.ofString path) && !force with
  | true => rfl
  | false =>
    simp only [Bool.false_eq_true, if_false, Action.run_bind, Action.run_get]
    cases destination path disk with
    | error failure made => rfl
    | ok target made =>
      simp only
      split_ifs
      · rfl
      · simp only [Action.run_bind, Action.run_modify]
        cases moveInPlace (target.dropLast ++ [staging]) (target.dropLast ++ [backup]) target
          ((made.insert (target.dropLast ++ [staging]) (.directory [])).insert
            (target.dropLast ++ [staging] ++ [pageName]) (.file page.toUTF8)) <;> rfl

end Run

section Destination
variable {disk made : Disk} {path : String} {target : Location}

theorem paved_destination (disk : Disk) (path : String) :
    disk.Paved (Path.ofText path.toList).holder (leftBy (destination path disk)) := by
  have hpaved := paved_ensureDirectories disk (Path.ofText path.toList).holder
  simp only [destination, Action.run_bind, Action.run_get]
  cases disk.locate (Path.ofString path) with
  | ok location => exact .refl disk _
  | error fault =>
    cases (Path.ofText path.toList).fileName? with
    | none => exact .refl disk _
    | some name =>
      simp only [Action.run_bind, Action.run_get]
      cases hensure : ensureDirectories (Path.ofText path.toList).holder disk with
      | error failure made => rwa [hensure] at hpaved
      | ok _ made =>
        rw [hensure] at hpaved
        simp only
        cases made.locate (Path.ofText path.toList).holder <;> exact hpaved

theorem paved_of_destination (h : destination path disk = .ok target made) :
    disk.Paved (Path.ofText path.toList).holder made := by
  have hpaved := paved_destination disk path
  rwa [h] at hpaved

/-- A destination that is not the root is a name in a directory: a name that is taken, or the last one of the path. -/
theorem slot_of_destination (hsound : disk.Sound) (h : destination path disk = .ok target made) (hroot : target ≠ []) :
    ∃ parent name, target = parent ++ [name] ∧ made.Slot parent name ∧
      (made.root.kind? target ≠ none ∨ name.toList ∈ (Path.ofString path).steps) := by
  rcases destination_ok h with ⟨hlocate, rfl⟩ | ⟨name, directory, hname, hensure, hlocate, rfl⟩
  · obtain ⟨parent, name, rfl⟩ := (List.eq_nil_or_concat target).resolve_left hroot
    rw [List.concat_eq_append] at *
    have hnames := (Disk.reaches_of_locate hlocate).proper hsound
    have hthere := Disk.kind?_of_locate hsound hlocate
    obtain ⟨hstay, hup, -⟩ := hnames name (List.mem_append_right _ List.mem_cons_self)
    exact ⟨parent, name, rfl, ⟨fun key hkey => hnames key (List.mem_append_left _ hkey),
      Node.directory_of_below (List.cons_ne_nil _ []) hthere, hstay, hup⟩, .inl hthere⟩
  · obtain ⟨above, hsteps, hstay, hup⟩ := Path.fileName?_eq_some_iff.mp hname
    have hpaved := paved_of_ensureDirectories hensure
    obtain ⟨location, hlocation, hdirectory⟩ := locate_of_ensureDirectories hsound (Path.holder_ne _) hensure
    obtain rfl : directory = location := Except.ok.inj (hlocate.symm.trans hlocation)
    have hmem : name ∈ (Path.ofString path).steps := by
      refine (Path.undotted_ofText path.toList).mem ?_
      rw [hsteps]
      exact List.mem_append_right _ List.mem_cons_self
    refine ⟨directory, String.ofList name, rfl, ⟨(Disk.reaches_of_locate hlocate).proper (hpaved.sound hsound),
      hdirectory, fun heq => hstay ?_, fun heq => hup ?_⟩, .inr (by rwa [String.toList_ofList])⟩
    · rw [← String.toList_ofList (l := name), heq]
      rfl
    · rw [← String.toList_ofList (l := name), heq]
      rfl

/-- A name that is used nowhere is not on the way to a destination either. -/
theorem unused_at_destination {parent : Location} {name temporary : String}
    (h : disk.Unused temporary (Path.ofString path)) (hpaved : disk.Paved (Path.ofText path.toList).holder made)
    (hslot : made.Slot parent name)
    (hname : made.root.kind? (parent ++ [name]) ≠ none ∨ name.toList ∈ (Path.ofString path).steps) :
    made.Unused temporary ⟨true, (parent ++ [name]).map String.toList⟩ := by
  have hstay : temporary.toList ≠ ['.'] := fun heq => h.proper.1 (String.toList_inj.mp heq)
  have hmade := h.paved hpaved fun hmem => h.path (Path.mem_of_mem_holder_ofText hstay hmem)
  refine { hmade with path := fun hmem => ?_ }
  obtain ⟨key, hkey, heq⟩ := List.mem_map.mp hmem
  obtain rfl := String.toList_inj.mp heq
  rcases hname with hthere | hlast
  · exact hmade.not_mem hthere hkey
  rcases List.mem_append.mp hkey with hkey | hkey
  · exact hmade.not_mem (by rw [hslot.directory]; exact nofun) hkey
  · exact h.path (List.mem_singleton.mp hkey ▸ hlast)

end Destination

section Found
variable {disk : Disk} {path : String} {location : Location}

theorem Path.ofString_entryPath {s name : List Char} (hs : s ≠ []) (hname : name ≠ []) (hslash : '/' ∉ name) :
    Path.ofString (String.ofList (entryPath s name)) = ⟨(Path.spelled s).absolute, (Path.spelled s).steps ++ [name]⟩ := by
  have hjoined (front : List Char) : Path.walked (front ++ '/' :: name) =
      ⟨(front ++ '/' :: name).head? = some '/', (front.splitOn '/').filter (!·.isEmpty) ++ [name]⟩ := by
    have hlast : (front ++ '/' :: name).getLast? ≠ some '/' := by
      rw [List.getLast?_append_of_ne_nil _ (List.cons_ne_nil _ _), ← List.singleton_append,
        List.getLast?_append_of_ne_nil _ hname]
      exact fun heq => hslash (List.mem_of_getLast? heq)
    have hkept : [name].filter (!·.isEmpty) = [name] := by simpa using hname
    rw [Path.walked, if_neg hlast, Path.spelled, List.splitOn_append_cons_self, List.splitOn_eq_singleton hslash,
      List.filter_append, hkept]
  rw [Path.ofString, String.toList_ofList, entryPath, List.isEmpty_eq_false_iff.mpr hs, Bool.false_or]
  by_cases hend : s.getLast? = some '/'
  · obtain ⟨front, rfl⟩ := List.getLast?_eq_some_iff.mp hend
    have hhead : (front ++ '/' :: name).head? = (front ++ ['/']).head? := by cases front <;> rfl
    rw [if_pos (decide_eq_true hend), List.append_assoc, List.singleton_append, hjoined, Path.spelled,
      List.splitOn_append_cons_self, List.filter_append, hhead]
    simp
  · have hhead : (s ++ '/' :: name).head? = s.head? := List.head?_append_of_ne_nil _ hs
    rw [if_neg (by simpa using hend), hjoined, Path.spelled, hhead]

/-- A slash at the end of a path does not change where it leads. -/
theorem Disk.Reaches.spelled (h : disk.Reaches (Path.ofString path) location) :
    disk.Reaches (Path.spelled path.toList) location := by
  rw [Path.ofString, Path.walked] at h
  split_ifs at h with hslash
  · obtain ⟨links, hlinks, hleads⟩ := h
    obtain ⟨there, i, j, habove, hdot, hij⟩ := hleads.split
    obtain rfl : there = location := by
      generalize hstep : ['.'] = step at hdot
      cases hdot with
      | move _ hmove hrest =>
        cases hrest
        cases hmove with
        | stay => rfl
        | up => cases hstep
        | down hname _ _ => exact absurd (String.toList_inj.mp hstep.symm) hname.1
      | follow hname _ _ => exact absurd (String.toList_inj.mp hstep.symm) hname.1
    exact ⟨i, by omega, habove⟩
  · exact h

theorem Disk.steps_of_place {disk : Disk} {fl : Bool} {p : Path} {place : Place} (h : disk.place fl p = .ok place) :
    p.absolute = true ∨ p.steps ≠ [] := by
  rw [Disk.place] at h
  split_ifs at h with _ hnone
  rw [Bool.and_eq_true, Bool.not_eq_true', List.isEmpty_iff, not_and_or, Bool.not_eq_false] at hnone
  exact hnone

/-- A path leads to a directory in every tree with the directories and links of the one where it does. -/
theorem Disk.locate_carried {disk' : Disk} {p : Path} (h : disk.locate p = .ok location)
    (hdirectory : disk.root.kind? location = some .directory) (hhere : disk'.here = disk.here)
    (hways : SameWays disk.root disk'.root) : disk'.locate p = .ok location := by
  obtain ⟨links, hlinks, hleads⟩ := Disk.reaches_of_locate h
  have hplace := Disk.place_of_locate h
  exact Disk.Reaches.locate ⟨links, hlinks, hhere ▸ hleads.carried hways hdirectory⟩ (Disk.place_ok hplace).1
    (Disk.steps_of_place hplace)

/-- Whether an entry of a directory can have a name. -/
structure Nameable (name : String) : Prop where
  proper : Proper name
  ne : name.toList ≠ []
  slash : '/' ∉ name.toList
  nul : '\x00' ∉ name.toList

instance (name : String) : Decidable (Nameable name) :=
  decidable_of_iff (Proper name ∧ name.toList ≠ [] ∧ '/' ∉ name.toList ∧ '\x00' ∉ name.toList)
    ⟨fun ⟨hproper, hne, hslash, hnul⟩ => ⟨hproper, hne, hslash, hnul⟩,
      fun h => ⟨h.proper, h.ne, h.slash, h.nul⟩⟩

/-- A path without a character leads nowhere. -/
theorem toList_ne_nil_of_locate (h : disk.locate (Path.ofString path) = .ok location) : path.toList ≠ [] := by
  intro hnil
  have hsteps := Disk.steps_of_place (Disk.place_of_locate h)
  rw [Path.ofString, hnil] at hsteps
  exact absurd hsteps (by decide)

/-- The path of an entry ends at its name in the directory that the path before it leads to. -/
theorem endsAt_entry {name : String} (hname : Nameable name) (h : disk.locate (Path.ofString path) = .ok location)
    (hdirectory : disk.root.kind? location = some .directory) :
    disk.EndsAt (Path.ofString (String.ofList (entryPath path.toList name.toList))) location name := by
  rw [Path.ofString_entryPath (toList_ne_nil_of_locate h) hname.ne hname.slash]
  refine ⟨List.getLast?_concat, hname.proper, ?_, ?_, hdirectory⟩
  · intro step hstep
    rcases List.mem_append.mp hstep with hstep | hstep
    · exact (Disk.place_ok (Disk.place_of_locate h)).1 step (Path.mem_of_mem_spelled hstep)
    · rw [List.mem_singleton.mp hstep]
      exact hname.nul
  · rw [List.dropLast_concat]
    exact (Disk.reaches_of_locate h).spelled

end Found

/-- What a page that is exported leaves on the disk: nothing is added to it but directories on the way, and nothing is
changed but what stands at the destination, which holds the page alone. -/
structure PublishedAt (disk made disk' : Disk) (path page out : String) (target : Location) : Prop where
  paved : disk.Paved (Path.ofText path.toList).holder made
  destined : destination path disk = .ok target made
  returned : out = String.ofList (entryPath path.toList pageName.toList)
  alone : disk'.root.find? target = some (.directory [(pageName, .file page.toUTF8)])
  others : ∀ location, ¬ target <+: location → disk'.root.kind? location = made.root.kind? location
  here : disk'.here = disk.here
  /-- The working directory and those above it are where they were. -/
  above : ∀ above, above <+: disk.here → ¬ target <+: above ∧ disk'.root.kind? above = some .directory
  found : disk'.locate (Path.ofString path) = .ok target →
    disk'.find? (Path.ofString out) = some (.file page.toUTF8)
  /-- The path leads to the destination if it leads there while an empty directory is there. -/
  found_iff : disk'.locate (Path.ofString path) = .ok target ↔
    (made.insert target (.directory [])).locate (Path.ofString path) = .ok target

section Published
variable {disk made disk' : Disk} {path page out : String} {force : Bool} {target parent : Location} {name : String}

/-- Trees in which different nodes are put have the same directories and links if the nodes do. -/
theorem sameWays_insert (hdirectory : made.root.kind? parent = some .directory) {new new' : Node}
    (hways : SameWays new new') :
    SameWays (made.root.insert (parent ++ [name]) new) (made.root.insert (parent ++ [name]) new') := by
  intro location kind hkind hthere
  by_cases hbelow : parent ++ [name] <+: location
  · obtain ⟨below, rfl⟩ := hbelow
    rw [Node.kind?_insert_below hdirectory] at hthere ⊢
    exact hways below kind hkind hthere
  · rw [Node.kind?_insert hdirectory name hbelow] at hthere ⊢
    exact hthere

/-- A directory that holds one file has the directories and links of an empty one. -/
theorem sameWays_file (fileName : String) (content : ByteArray) :
    SameWays (.directory [(fileName, .file content)]) (.directory []) ∧
      SameWays (.directory []) (.directory [(fileName, .file content)]) := by
  constructor
  · intro location kind hkind hthere
    cases location with
    | nil => exact hthere
    | cons step rest =>
      rw [Node.kind?_cons, lookup_cons_eq] at hthere
      split_ifs at hthere
      · cases rest with
        | nil => exact absurd (Option.some.inj hthere).symm (hkind content)
        | cons _ _ => cases hthere
      · cases hthere
  · intro location kind _ hthere
    cases location with
    | nil => exact hthere
    | cons step rest => cases hthere

/-- The same paths lead to a directory that holds one file as to an empty one in its place. -/
theorem locate_insert_iff (hdirectory : made.root.kind? parent = some .directory) (fileName : String)
    (content : ByteArray) (p : Path) :
    (made.insert (parent ++ [name]) (.directory [(fileName, .file content)])).locate p = .ok (parent ++ [name]) ↔
      (made.insert (parent ++ [name]) (.directory [])).locate p = .ok (parent ++ [name]) := by
  have hkind (entries : List (String × Node)) :
      (made.root.insert (parent ++ [name]) (.directory entries)).kind? (parent ++ [name]) = some .directory :=
    Node.kind?_insert_self hdirectory name _
  constructor
  · intro h
    exact Disk.locate_carried h (hkind _) rfl (sameWays_insert hdirectory (sameWays_file fileName content).1)
  · intro h
    exact Disk.locate_carried h (hkind _) rfl (sameWays_insert hdirectory (sameWays_file fileName content).2)

theorem returned_of_exportPage (h : exportPage path page force disk = .ok out disk') :
    out = String.ofList (entryPath path.toList pageName.toList) := by
  rw [exportPage_eq] at h
  split_ifs at h
  split at h
  · cases h
  split_ifs at h
  split at h
  · cases h
  · cases h
    rfl

theorem publishedAt_of_exportPage (hsound : disk.Sound) (h : exportPage path page force disk = .ok out disk') :
    ∃ target made, PublishedAt disk made disk' path page out target := by
  obtain ⟨-, target, made, hdestination, hbelow, hplaced⟩ := exportPage_ok h
  have hpaved := paved_of_destination hdestination
  obtain ⟨parent, name, rfl, hslot, -⟩ :=
    slot_of_destination hsound hdestination fun hnil => hbelow (hnil ▸ List.nil_prefix)
  obtain ⟨rfl, -⟩ := placeDirectory_ok hplaced
  obtain rfl := returned_of_exportPage h
  have hothers (location : Location) (hlocation : ¬ parent ++ [name] <+: location) :=
    Node.kind?_insert hslot.directory name hlocation (.directory [(pageName, .file page.toUTF8)])
  refine ⟨_, made, hpaved, hdestination, rfl, Node.find?_insert hslot.directory name _, hothers, hpaved.here,
    fun above habove => ?_, fun hlocate => ?_, locate_insert_iff hslot.directory pageName _ _⟩
  · have houtside : ¬ parent ++ [name] <+: above := fun hin => hbelow (hpaved.here ▸ hin.trans habove)
    refine ⟨houtside, (hothers above houtside).trans (hpaved.grown.kept ?_)⟩
    obtain ⟨below, hhere⟩ := habove
    have hherehere := hsound.here
    by_cases hnil : below = []
    · rwa [← hhere, hnil, List.append_nil] at hherehere
    · exact Node.directory_of_below hnil (by rw [hhere, hherehere]; exact nofun)
  · have hpage := Node.find?_insert hslot.directory name (.directory [(pageName, .file page.toUTF8)])
    have hdirectory := Node.kind?_eq_directory_iff.mpr ⟨_, hpage⟩
    exact (endsAt_entry (by decide) hlocate hdirectory).find? (Node.kind?_concat hpage pageName)

theorem paved_of_exportPage {failure : Failure} (h : exportPage path page force disk = .error failure disk') :
    disk.Paved (Path.ofText path.toList).holder disk' := by
  have hpaved := paved_destination disk path
  rw [exportPage_eq] at h
  split_ifs at h
  · cases h
    exact .refl disk _
  cases hdestination : destination path disk with
  | error failure made =>
    rw [hdestination] at h hpaved
    cases h
    exact hpaved
  | ok target made =>
    rw [hdestination] at h hpaved
    simp only at h
    split_ifs at h
    · cases h
      exact hpaved
    rw [change] at h
    cases hplaced : made.placeDirectory target [(pageName, .file page.toUTF8)] with
    | error fault =>
      simp only [hplaced] at h
      cases h
      exact hpaved
    | ok disk' =>
      simp only [hplaced] at h
      cases h

/-- A destination above the working directory is refused. -/
theorem exportPage_of_above (hlocate : disk.locate (Path.ofString path) = .ok target) (habove : target <+: disk.here) :
    exportPage path page true disk = .error (.unsafeTarget path) disk := by
  have hdestination : destination path disk = .ok target disk := by
    simp only [destination, Action.run_bind, Action.run_get, hlocate]
    rfl
  rw [exportPage_eq, Bool.not_true, Bool.and_false, if_neg Bool.false_ne_true, hdestination]
  exact if_pos (List.isPrefixOf_iff_prefix.mpr habove)

theorem exportInSteps_same {staging backup : String} (hsound : disk.Sound) (hne : staging ≠ backup)
    (hstaging : disk.Unused staging (Path.ofString path)) (hbackup : disk.Unused backup (Path.ofString path)) :
    SameOutcome (exportPage path page force disk) (exportInSteps staging backup path page force disk) := by
  rw [exportPage_eq, exportInSteps_eq]
  split_ifs
  · exact .refl _
  cases hdestination : destination path disk with
  | error failure made => exact .refl _
  | ok target made =>
    have hpaved := paved_of_destination hdestination
    simp only
    split_ifs with hbelow
    · exact .refl _
    obtain ⟨parent, name, rfl, hslot, hname⟩ := slot_of_destination hsound hdestination fun hnil => hbelow (hnil ▸ rfl)
    have hunused {temporary : String} (h : disk.Unused temporary (Path.ofString path)) :=
      unused_at_destination h hpaved hslot hname
    have hstaged : (made.insert (parent ++ [staging]) (.directory [])).insert (parent ++ [staging] ++ [pageName])
        (.file page.toUTF8) = made.insert (parent ++ [staging]) (.directory [(pageName, .file page.toUTF8)]) := by
      rw [List.append_assoc]
      exact congrArg (Disk.mk · made.here) (Node.insert_insert_below hslot.directory pageName _)
    have hsame : SameOutcome (change (·.placeDirectory (parent ++ [name]) [(pageName, .file page.toUTF8)]) made) _ :=
      moveInPlace_same (hpaved.sound hsound) hslot (hunused hstaging) (hunused hbackup) hne
    rw [List.dropLast_concat, hstaged]
    generalize change (·.placeDirectory (parent ++ [name]) [(pageName, .file page.toUTF8)]) made = at_once at hsame ⊢
    generalize moveInPlace _ _ _ _ = in_steps at hsame ⊢
    cases hsame with
    | ok hhere hkinds => exact .ok hhere hkinds
    | error => exact .error

end Published

/-- A page is exported as a whole or not at all: work that fails leaves the disk as it was but for directories on the way
to the page, and so does work that succeeds, but for the destination, which holds the page alone. Neither the working
directory nor one above it is the destination or stands in it, and a path to one of them is refused. The way through a
staging directory, with what is replaced set aside, has the same outcome. -/
theorem published_or_untouched {disk : Disk} (hsound : disk.Sound) (path page : String) (force : Bool) :
    (∀ out disk', exportPage path page force disk = .ok out disk' →
      ∃ target made, PublishedAt disk made disk' path page out target) ∧
    (∀ failure disk', exportPage path page force disk = .error failure disk' →
      disk.Paved (Path.ofText path.toList).holder disk') ∧
    (∀ target, disk.locate (Path.ofString path) = .ok target → target <+: disk.here →
      exportPage path page true disk = .error (.unsafeTarget path) disk) ∧
    ∀ staging backup, staging ≠ backup → disk.Unused staging (Path.ofString path) →
      disk.Unused backup (Path.ofString path) →
        SameOutcome (exportPage path page force disk) (exportInSteps staging backup path page force disk) :=
  ⟨fun _ _ => publishedAt_of_exportPage hsound, fun _ _ => paved_of_exportPage, fun _ => exportPage_of_above,
    fun _ _ => exportInSteps_same hsound⟩

theorem shelf_replaced : shelf.Sound ∧
    Leaves (exportPage "doc" "<html></html>" true shelf) (fun out disk =>
      ∃ target made, PublishedAt shelf made disk "doc" "<html></html>" out target) ∧
    shelf.Unused ".routedoc-b9QxZ1" (Path.ofString "doc") ∧ shelf.Unused ".routedoc-old-t0Kd2e" (Path.ofString "doc") ∧
    SameOutcome (exportPage "doc" "<html></html>" true shelf)
      (exportInSteps ".routedoc-b9QxZ1" ".routedoc-old-t0Kd2e" "doc" "<html></html>" true shelf) := by
  have hsound : shelf.Sound := by decide +kernel
  have hstaging : shelf.Unused ".routedoc-b9QxZ1" (Path.ofString "doc") :=
    .of_mentions (by decide +kernel) (by decide +kernel) (by decide +kernel) (by decide +kernel)
  have hbackup : shelf.Unused ".routedoc-old-t0Kd2e" (Path.ofString "doc") :=
    .of_mentions (by decide +kernel) (by decide +kernel) (by decide +kernel) (by decide +kernel)
  obtain ⟨out, disk, hrun, -⟩ : Leaves (exportPage "doc" "<html></html>" true shelf) fun _ _ => True := by
    decide +kernel
  obtain ⟨hpublished, -, -, hsame⟩ := published_or_untouched hsound "doc" "<html></html>" true
  exact ⟨hsound, ⟨out, disk, hrun, hpublished out disk hrun⟩, hstaging, hbackup,
    hsame _ _ (by decide) hstaging hbackup⟩

/-- A disk with a directory in a directory. -/
def attic : Disk := ⟨.directory [("doc", .directory [("old", .directory [])])], []⟩

/-- The path that is returned does not lead to the page if it goes through the directory that was replaced. -/
theorem page_lost_behind_destination : attic.Sound ∧
    Leaves (exportPage "doc/old/.." "<html></html>" true attic) fun out disk =>
      disk.root.kind? ["doc", "index.html"] = some (.file "<html></html>".toUTF8) ∧
        disk.exists? (Path.ofString out) = false := by
  decide +kernel

end ApiHandbook.Files
