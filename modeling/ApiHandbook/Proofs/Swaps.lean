import ApiHandbook.Proofs.Edits
import ApiHandbook.Proofs.Exports
import ApiHandbook.Proofs.Scratch

/-! A directory that is moved to its place, with what stands there set aside first: the disk is as if the directory had
been put there at once. -/
namespace ApiHandbook.Files

/-- Whether two runs end alike: with the same result and trees in which the same stands at each location, or with the
same failure and disk. -/
inductive SameOutcome {α : Type} : EStateM.Result Failure Disk α → EStateM.Result Failure Disk α → Prop where
  | ok {a : α} {disk disk' : Disk} : disk'.here = disk.here →
    (∀ location, disk'.root.kind? location = disk.root.kind? location) → SameOutcome (.ok a disk) (.ok a disk')
  | error {failure : Failure} {disk : Disk} : SameOutcome (.error failure disk) (.error failure disk)

theorem SameOutcome.refl {α : Type} (x : EStateM.Result Failure Disk α) : SameOutcome x x := by
  cases x with
  | ok a disk => exact .ok rfl fun _ => rfl
  | error failure disk => exact .error

namespace Disk
variable {disk : Disk} {source target directory : Location} {name : String} {node : Node}

theorem move_eq (hplace : disk.place false ⟨true, target.map String.toList⟩ = .ok (.free directory name))
    (hsource : disk.root.find? source = some node) :
    disk.move source target = .ok ((disk.insert target node).remove source) := by
  simp only [move, hplace, hsource]
  rfl

theorem place_of_names (hnames : ∀ name ∈ directory, Proper name) (hname : Proper name)
    (hnul : ∀ name' ∈ directory ++ [name], '\x00' ∉ name'.toList)
    (hdirectory : disk.root.kind? directory = some .directory) (hfree : disk.root.kind? (directory ++ [name]) = none) :
    disk.place false ⟨true, (directory ++ [name]).map String.toList⟩ = .ok (.free directory name) := by
  rw [place_below hnames hdirectory (List.forall_mem_map.mpr hnul), walk_name hdirectory hname, hfree]
  rfl

/-- Whether a directory can be put under a name in another one, as far as its path tells. -/
structure Slot (disk : Disk) (directory : Location) (name : String) : Prop where
  names : ∀ name ∈ directory, Proper name
  directory : disk.root.kind? directory = some .directory
  stay : name ≠ "."
  up : name ≠ ".."

/-- What exists under a name is an entry of its directory. -/
theorem Slot.taken (hslot : disk.Slot directory name)
    (hexists : disk.exists? ⟨true, (directory ++ [name]).map String.toList⟩ = true) :
    Proper name ∧ (∀ name' ∈ directory ++ [name], '\x00' ∉ name'.toList) ∧
      (∃ location, disk.place false ⟨true, (directory ++ [name]).map String.toList⟩ = .ok (.taken location)) ∧
      ∃ node, disk.root.find? (directory ++ [name]) = some node := by
  rw [exists?, Option.isSome_iff_exists] at hexists
  obtain ⟨_, hfind⟩ := hexists
  obtain ⟨location, hlocate, -⟩ := locate_of_find? hfind
  obtain ⟨hnul, hwalk⟩ := place_ok (place_of_locate hlocate)
  obtain ⟨links, hlinks, hleads⟩ := leads_of_walk hwalk
  obtain ⟨location', htaken⟩ := hleads.taken hlinks
  have hplace : disk.place false ⟨true, (directory ++ [name]).map String.toList⟩ = .ok (.taken location') :=
    (place_eq hnul (.inl rfl)).trans htaken
  have hbelow : walk disk.root false linkLimit directory ([] ++ [name.toList]) = .ok (.taken location') :=
    (place_below hslot.names hslot.directory hnul).symm.trans hplace
  obtain ⟨_, _, -, -, hname, -, -⟩ := leads_of_taken ⟨hslot.stay, hslot.up⟩ hbelow
  refine ⟨hname, fun name' hmem => hnul _ (List.mem_map_of_mem hmem), ⟨location', hplace⟩, ?_⟩
  rw [List.nil_append, walk_name hslot.directory hname] at hbelow
  cases hfound : disk.root.find? (directory ++ [name]) with
  | some node => exact ⟨node, rfl⟩
  | none =>
    rw [Node.kind?_eq_none_iff.mpr hfound] at hbelow
    cases hbelow

theorem Unused.ne_last {temporary : String}
    (h : disk.Unused temporary ⟨true, (directory ++ [name]).map String.toList⟩) : name ≠ temporary := by
  rintro rfl
  exact h.path (List.mem_map_of_mem (List.mem_append_right directory List.mem_cons_self))

/-- The disk with other entries in a directory. -/
def withEntries (disk : Disk) (directory : Location) (entries : List (String × Node)) : Disk :=
  { disk with root := disk.root.withEntries directory entries }

section Moves
variable {disk : Disk} {parent : Location} {old entries : List (String × Node)} {name other : String} {node : Node}
  (hold : disk.root.find? parent = some (.directory old)) (hnames : ∀ name ∈ parent, Proper name)
  (hnul : ∀ name ∈ parent, '\x00' ∉ name.toList)
include hold

theorem insert_withEntries (name : String) (new : Node) :
    (disk.withEntries parent entries).insert (parent ++ [name]) new = disk.withEntries parent (put name new entries) :=
  congrArg (Disk.mk · disk.here) (Node.insert_withEntries hold name new)

theorem find?_withEntries (name : String) :
    (disk.withEntries parent entries).root.find? (parent ++ [name]) = entries.lookup name :=
  Node.find?_concat (Node.find?_withEntries hold) name

theorem kind?_withEntries (entries : List (String × Node)) :
    (disk.withEntries parent entries).root.kind? parent = some .directory :=
  Node.kind?_eq_directory_iff.mpr ⟨entries, Node.find?_withEntries hold⟩

include hnames hnul

/-- An entry that is moved to a free name goes from the one name to the other. -/
theorem move_to_free (hname : Proper name) (hnameNul : '\x00' ∉ name.toList) (hfree : entries.lookup name = none)
    (hsource : entries.lookup other = some node) :
    (disk.withEntries parent entries).move (parent ++ [other]) (parent ++ [name]) =
      .ok (disk.withEntries parent ((put name node entries).filter (·.1 != other))) := by
  have hplace := place_of_names hnames hname
    (List.forall_mem_append.mpr ⟨hnul, List.forall_mem_singleton.mpr hnameNul⟩)
    (kind?_withEntries hold entries)
    (Node.kind?_eq_none_iff.mpr ((find?_withEntries hold name).trans hfree))
  rw [move_eq hplace ((find?_withEntries hold other).trans hsource), insert_withEntries hold]
  exact congrArg Except.ok (congrArg (Disk.mk · disk.here) (Node.remove_withEntries _ _ _ _))

/-- An entry that is moved into an empty directory beside it becomes its only entry. -/
theorem move_into_empty {below : String} (hname : Proper name) (hnameNul : '\x00' ∉ name.toList)
    (hbelow : Proper below) (hbelowNul : '\x00' ∉ below.toList) (hempty : entries.lookup name = some (.directory []))
    (hsource : entries.lookup other = some node) :
    (disk.withEntries parent entries).move (parent ++ [other]) (parent ++ [name] ++ [below]) =
      .ok (disk.withEntries parent ((put name (.directory [(below, node)]) entries).filter (·.1 != other))) := by
  have hdirectory : (disk.withEntries parent entries).root.find? (parent ++ [name]) = some (.directory []) :=
    (find?_withEntries hold name).trans hempty
  have hplace := place_of_names (List.forall_mem_append.mpr ⟨hnames, List.forall_mem_singleton.mpr hname⟩) hbelow
    (List.forall_mem_append.mpr ⟨List.forall_mem_append.mpr ⟨hnul, List.forall_mem_singleton.mpr hnameNul⟩,
      List.forall_mem_singleton.mpr hbelowNul⟩)
    (Node.kind?_eq_directory_iff.mpr ⟨[], hdirectory⟩) (Node.kind?_concat hdirectory below)
  rw [move_eq hplace ((find?_withEntries hold other).trans hsource)]
  have hinsert : (disk.withEntries parent entries).insert (parent ++ [name] ++ [below]) node =
      disk.withEntries parent (put name (.directory [(below, node)]) entries) := by
    rw [List.append_assoc]
    exact congrArg (Disk.mk · disk.here) (Node.insert_below_withEntries hold hempty below node)
  rw [hinsert]
  exact congrArg Except.ok (congrArg (Disk.mk · disk.here) (Node.remove_withEntries _ _ _ _))

end Moves
end Disk

/-- When both temporary names are free again, the directory has the new entry and the old ones. -/
theorem lookup_swapped {α : Type} {old : List (String × α)} {name staging backup : String}
    (hstaging : old.lookup staging = none) (hbackup : old.lookup backup = none) (hne : name ≠ staging)
    (hne' : name ≠ backup) (new staged empty aside : α) (key : String) :
    (((put name new ((put backup aside (put backup empty (put staging staged old))).filter (·.1 != name))).filter
      (·.1 != staging)).filter (·.1 != backup)).lookup key = (put name new old).lookup key := by
  rw [lookup_filter_ne, lookup_filter_ne, lookup_put, lookup_filter_ne, lookup_put, lookup_put, lookup_put, lookup_put]
  by_cases hkeyBackup : key = backup
  · rw [if_pos hkeyBackup, hkeyBackup, if_neg hne'.symm, hbackup]
  by_cases hkeyStaging : key = staging
  · rw [if_neg hkeyBackup, if_pos hkeyStaging, hkeyStaging, if_neg hne.symm, hstaging]
  by_cases hkey : key = name
  · simp only [if_neg hkeyBackup, if_neg hkeyStaging, if_pos hkey]
  · simp only [if_neg hkeyBackup, if_neg hkeyStaging, if_neg hkey]

section Swap
variable {made : Disk} {parent : Location} {name staging backup : String} {entries : List (String × Node)}
  (hsound : made.Sound) (hslot : made.Slot parent name)
  (hstaging : made.Unused staging ⟨true, (parent ++ [name]).map String.toList⟩)
include hsound hslot hstaging

theorem place_staged (fl : Bool) :
    (made.insert (parent ++ [staging]) (.directory entries)).place fl ⟨true, (parent ++ [name]).map String.toList⟩ =
      made.place fl ⟨true, (parent ++ [name]).map String.toList⟩ := by
  have hhere : (made.insert (parent ++ [staging]) (.directory entries)).here = made.here := rfl
  exact Disk.place_hidden hstaging hsound hhere (fun _ hbelow => Node.kind?_insert hslot.directory staging hbelow _) fl

theorem exists?_staged : (made.insert (parent ++ [staging]) (.directory entries)).exists?
    ⟨true, (parent ++ [name]).map String.toList⟩ = made.exists? ⟨true, (parent ++ [name]).map String.toList⟩ := by
  have hhere : (made.insert (parent ++ [staging]) (.directory entries)).here = made.here := rfl
  exact Disk.exists?_hidden hstaging hsound hhere fun _ hbelow => Node.kind?_insert hslot.directory staging hbelow _

/-- Where nothing stands, or only a link that leads nowhere, nothing is set aside. -/
theorem moveInPlace_of_missing (aside : Location)
    (hmissing : made.exists? ⟨true, (parent ++ [name]).map String.toList⟩ = false) :
    moveInPlace (parent ++ [staging]) aside (parent ++ [name])
        (made.insert (parent ++ [staging]) (.directory entries)) =
      change (·.placeDirectory (parent ++ [name]) entries) made := by
  have hfree := hstaging.entries parent
  have hundone : (made.insert (parent ++ [staging]) (.directory entries)).remove (parent ++ [staging]) = made :=
    congrArg (Disk.mk · made.here) (Node.remove_insert hslot.directory hfree _)
  have hstaged : (made.insert (parent ++ [staging]) (.directory entries)).root.find? (parent ++ [staging]) =
      some (.directory entries) := Node.find?_insert hslot.directory staging _
  have hmoved : ((made.insert (parent ++ [staging]) (.directory entries)).insert (parent ++ [name])
      (.directory entries)).remove (parent ++ [staging]) = made.insert (parent ++ [name]) (.directory entries) :=
    congrArg (Disk.mk · made.here)
      (Node.remove_insert_insert hslot.directory hfree hstaging.ne_last _ _)
  rw [moveInPlace, exists?_staged hsound hslot hstaging, hmissing, change, Disk.placeDirectory, Disk.move,
    place_staged hsound hslot hstaging]
  cases made.place false ⟨true, (parent ++ [name]).map String.toList⟩ with
  | error fault =>
    change EStateM.Result.error _ _ = EStateM.Result.error _ _
    rw [hundone]
  | ok place =>
    cases place with
    | taken location =>
      change EStateM.Result.error _ _ = _
      simp only [bind, Except.bind]
      rw [hmissing, hundone]
      rfl
    | free directory last =>
      simp only [bind, Except.bind, hstaged, hmoved]
      rfl

/-- What stands at the place is set aside, makes room for the directory, and goes with what it was set aside in. -/
theorem moveInPlace_of_there (hbackup : made.Unused backup ⟨true, (parent ++ [name]).map String.toList⟩)
    (hne : staging ≠ backup) (hthere : made.exists? ⟨true, (parent ++ [name]).map String.toList⟩ = true) :
    SameOutcome (change (·.placeDirectory (parent ++ [name]) entries) made)
      (moveInPlace (parent ++ [staging]) (parent ++ [backup]) (parent ++ [name])
        (made.insert (parent ++ [staging]) (.directory entries))) := by
  obtain ⟨hname, hnul, ⟨location, hplace⟩, node, hnode⟩ := hslot.taken hthere
  obtain ⟨old, hold⟩ := Node.kind?_eq_directory_iff.mp hslot.directory
  have hfreeStaging : old.lookup staging = none := by
    rw [← Node.find?_concat hold, ← Node.kind?_eq_none_iff, hstaging.entries]
  have hfreeBackup : old.lookup backup = none := by
    rw [← Node.find?_concat hold, ← Node.kind?_eq_none_iff, hbackup.entries]
  -- The entries of the directory above, step by step.
  let staged := put staging (.directory entries) old
  let ready := put backup (.directory []) staged
  let cleared := (put backup (.directory [("previous", node)]) ready).filter (·.1 != name)
  let swapped := (put name (.directory entries) cleared).filter (·.1 != staging)
  have hstaged : made.insert (parent ++ [staging]) (.directory entries) = made.withEntries parent staged :=
    congrArg (Disk.mk · made.here) (Node.insert_eq_withEntries hold staging _)
  have hready : (made.withEntries parent staged).insert (parent ++ [backup]) (.directory []) =
      made.withEntries parent ready := Disk.insert_withEntries hold backup _
  have hparentNul : ∀ key ∈ parent, '\x00' ∉ key.toList := fun key hkey => hnul key (List.mem_append_left _ hkey)
  have haside : (made.withEntries parent ready).move (parent ++ [name]) (parent ++ [backup] ++ ["previous"]) =
      .ok (made.withEntries parent cleared) := by
    refine Disk.move_into_empty hold hslot.names hparentNul hbackup.proper hbackup.nul (by decide) (by decide) ?_ ?_
    · rw [lookup_put, if_pos rfl]
    · rw [lookup_put, if_neg hbackup.ne_last, lookup_put, if_neg hstaging.ne_last, ← Node.find?_concat hold, hnode]
  have hswapped : (made.withEntries parent cleared).move (parent ++ [staging]) (parent ++ [name]) =
      .ok (made.withEntries parent swapped) := by
    refine Disk.move_to_free hold hslot.names hparentNul hname
      (hnul name (List.mem_append_right _ List.mem_cons_self)) ?_ ?_
    · rw [lookup_filter_ne, if_pos rfl]
    · rw [lookup_filter_ne, if_neg hstaging.ne_last.symm, lookup_put, if_neg hne, lookup_put, if_neg hne, lookup_put,
        if_pos rfl]
  have hdone : (made.withEntries parent swapped).remove (parent ++ [backup]) =
      made.withEntries parent (swapped.filter (·.1 != backup)) :=
    congrArg (Disk.mk · made.here) (Node.remove_withEntries _ _ _ _)
  have hput : change (·.placeDirectory (parent ++ [name]) entries) made =
      .ok () (made.insert (parent ++ [name]) (.directory entries)) := by
    rw [change_ok, Disk.placeDirectory, hplace]
    exact if_pos hthere
  have hrun : moveInPlace (parent ++ [staging]) (parent ++ [backup]) (parent ++ [name])
      (made.insert (parent ++ [staging]) (.directory entries)) = .ok ()
      (made.withEntries parent (swapped.filter (·.1 != backup))) := by
    rw [moveInPlace, exists?_staged hsound hslot hstaging, hthere, hstaged, hready]
    simp only [if_true, haside, hswapped, hdone]
  rw [hput, hrun]
  refine .ok rfl fun location => ?_
  rw [show (made.insert (parent ++ [name]) (.directory entries)).root =
    made.root.withEntries parent (put name (.directory entries) old) from Node.insert_eq_withEntries hold name _]
  refine Node.kind?_withEntries_congr hold (fun key => ?_) location
  exact lookup_swapped hfreeStaging hfreeBackup hstaging.ne_last hbackup.ne_last _ _ _ _ key

/-- A directory that is moved in place has the effect of one that is put there at once. -/
theorem moveInPlace_same (hbackup : made.Unused backup ⟨true, (parent ++ [name]).map String.toList⟩)
    (hne : staging ≠ backup) :
    SameOutcome (change (·.placeDirectory (parent ++ [name]) entries) made)
      (moveInPlace (parent ++ [staging]) (parent ++ [backup]) (parent ++ [name])
        (made.insert (parent ++ [staging]) (.directory entries))) := by
  cases hexists : made.exists? ⟨true, (parent ++ [name]).map String.toList⟩ with
  | true => exact moveInPlace_of_there hsound hslot hstaging hbackup hne hexists
  | false =>
    rw [moveInPlace_of_missing hsound hslot hstaging (parent ++ [backup]) hexists]
    exact .refl _

end Swap

end ApiHandbook.Files
