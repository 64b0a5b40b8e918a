import ApiHandbook.Project.Scan
import ApiHandbook.Proofs.ByteOrder
import ApiHandbook.Proofs.Publication

/-! The source files of a project: a scan finds exactly those, each once and in the order of their names. -/
namespace ApiHandbook.Files

section Extension
variable {name extension : List Char}

/-- A name is split at its last dot. -/
theorem splitName_append (stem : List Char) (hdot : '.' ∉ extension) : splitName (stem ++ '.' :: extension) =
    if stem ≠ [] ∧ stem ++ '.' :: extension ≠ ['.', '.'] then (stem, some extension)
    else (stem ++ '.' :: extension, none) := by
  have hextension : ((stem ++ '.' :: extension).reverse.takeWhile (· != '.')).reverse = extension := by
    rw [List.reverse_append, List.reverse_cons, List.append_assoc, List.takeWhile_append_of_pos]
    · simp
    · intro c hc
      exact bne_iff_ne.mpr fun heq => hdot (heq ▸ List.mem_reverse.mp hc)
  have hbefore : (stem ++ '.' :: extension).take ((stem ++ '.' :: extension).length - extension.length - 1) = stem := by
    rw [List.length_append, List.length_cons,
      show stem.length + (extension.length + 1) - extension.length - 1 = stem.length by omega, List.take_left]
  simp only [splitName, hextension, hbefore]
  exact if_congr (by simp) rfl rfl

theorem eq_append_of_splitName (h : (splitName name).2 = some extension) :
    ∃ stem, stem ≠ [] ∧ name = stem ++ '.' :: extension := by
  have hmem : '.' ∈ name := by
    by_contra hmem
    simp [splitName, hmem] at h
  obtain ⟨back, front, hreverse, hdot⟩ := List.eq_append_cons_of_mem (List.mem_reverse.mpr hmem)
  obtain rfl : name = front.reverse ++ '.' :: back.reverse := by
    rw [← List.reverse_reverse name, hreverse]
    simp
  rw [splitName_append _ fun hback => hdot (List.mem_reverse.mp hback)] at h
  split_ifs at h with hname
  obtain rfl := Option.some.inj h
  exact ⟨_, hname.1, rfl⟩

end Extension

/-- Whether a tree can stand on a disk: every entry has a name that no other entry of its directory has. -/
inductive Node.Orderly : Node → Prop where
  | file (content : ByteArray) : Orderly (.file content)
  | link (target : String) : Orderly (.link target)
  | directory {entries : List (String × Node)} : (entries.map Prod.fst).Nodup → (∀ entry ∈ entries, Nameable entry.1) →
      (∀ entry ∈ entries, Orderly entry.2) → Orderly (.directory entries)

theorem Node.orderly_directory_iff {entries : List (String × Node)} : (Node.directory entries).Orderly ↔
    (entries.map Prod.fst).Nodup ∧ (∀ entry ∈ entries, Nameable entry.1) ∧ ∀ entry ∈ entries, entry.2.Orderly := by
  constructor
  · rintro (_ | _ | ⟨hkeys, hnames, hentries⟩)
    exact ⟨hkeys, hnames, hentries⟩
  · rintro ⟨hkeys, hnames, hentries⟩
    exact .directory hkeys hnames hentries

/-- What is found in a tree that can stand on a disk is such a tree, and stands below names that can be there. -/
theorem Node.Orderly.found {root node : Node} {names : Location} (h : root.Orderly) (hfind : root.find? names = some node) :
    node.Orderly ∧ ∀ name ∈ names, Nameable name := by
  induction names generalizing root with
  | nil =>
    refine ⟨?_, nofun⟩
    rw [Node.find?] at hfind
    exact Option.some.inj hfind ▸ h
  | cons name rest ih =>
    cases h with
    | directory hkeys hnames hentries =>
      rw [Node.find?, Option.bind_eq_some_iff] at hfind
      obtain ⟨child, hchild, hrest⟩ := hfind
      have hmem := (lookup_eq_some_iff_mem hkeys).mp hchild
      obtain ⟨hnode, hbelow⟩ := ih (hentries _ hmem) hrest
      exact ⟨hnode, List.forall_mem_cons.mpr ⟨hnames _ hmem, hbelow⟩⟩
    | _ => cases hfind

/-- The path of what stands at a location below a directory. -/
def pathBelow (path : List Char) (names : Location) : List Char :=
  names.foldl (fun path name => entryPath path name.toList) path

section Steps
variable {path : List Char} {name : String} {names : Location}

theorem Path.steps_ofText_append (front : List Char) {piece : List Char} (hslash : '/' ∉ piece) :
    (Path.ofText (front ++ '/' :: piece)).steps =
      (Path.ofText front).steps ++ [piece].filter fun piece => !piece.isEmpty && piece != ['.'] := by
  rw [ofText, ofText, List.splitOn_append_cons_self, List.splitOn_eq_singleton hslash]
  cases hsplit : front.splitOn '/' with
  | nil => exact absurd hsplit (List.splitOn_ne_nil _ _)
  | cons first rest => simp [List.filter_append]

/-- The path of an entry takes one more name. -/
theorem Path.steps_ofText_entryPath (path : List Char) (hname : Nameable name) :
    (Path.ofText (entryPath path name.toList)).steps = (Path.ofText path).steps ++ [name.toList] := by
  have hstay : name.toList ≠ ['.'] := fun heq => hname.proper.1 (String.toList_inj.mp heq)
  have hkept : [name.toList].filter (fun piece => !piece.isEmpty && piece != ['.']) = [name.toList] := by
    simp [hname.ne, hstay]
  rw [entryPath]
  split_ifs with hend
  · rw [Bool.or_eq_true, List.isEmpty_iff, decide_eq_true_iff] at hend
    rcases hend with rfl | hend
    · simp [ofText, List.splitOn_eq_singleton hname.slash, hname.ne, hstay]
    · obtain ⟨front, rfl⟩ := List.getLast?_eq_some_iff.mp hend
      rw [List.append_assoc, List.singleton_append, steps_ofText_append front hname.slash, hkept,
        steps_ofText_append front List.not_mem_nil]
      simp
  · rw [steps_ofText_append path hname.slash, hkept]

theorem Path.steps_ofText_pathBelow (path : List Char) (hnames : ∀ name ∈ names, Nameable name) :
    (Path.ofText (pathBelow path names)).steps = (Path.ofText path).steps ++ names.map String.toList := by
  induction names generalizing path with
  | nil => rw [pathBelow, List.foldl_nil, List.map_nil, List.append_nil]
  | cons name rest ih =>
    obtain ⟨hname, hrest⟩ := List.forall_mem_cons.mp hnames
    rw [pathBelow, List.foldl_cons, ← pathBelow, ih _ hrest, steps_ofText_entryPath path hname, List.map_cons,
      List.append_assoc, List.singleton_append]

/-- Different locations have different paths. -/
theorem pathBelow_inj {names' : Location} (hnames : ∀ name ∈ names, Nameable name)
    (hnames' : ∀ name ∈ names', Nameable name) (h : pathBelow path names = pathBelow path names') : names = names' := by
  have hsteps := congrArg (fun s => (Path.ofText s).steps) h
  simp only [Path.steps_ofText_pathBelow path hnames, Path.steps_ofText_pathBelow path hnames',
    List.append_cancel_left_eq] at hsteps
  exact List.map_injective_iff.mpr (fun _ _ => String.toList_inj.mp) hsteps

end Steps
end ApiHandbook.Files

namespace ApiHandbook.Project
open Files

/-- Whether a file below a directory is one of its sources. -/
structure IsSource (disk : Disk) (path : List Char) (directory : Node) (names : Location) : Prop where
  kept : ∀ name ∈ names, name.toList.head? ≠ some '.' ∧ name ≠ "target"
  named : ∃ stem : String, stem ≠ "" ∧ names.getLast? = some (stem ++ ".rs")
  /-- The walk enters no link, but a link is a source if it leads to a file. -/
  file : (∃ content, directory.find? names = some (.file content)) ∨
    ∃ target content, directory.find? names = some (.link target) ∧
      disk.find? (Path.walked (pathBelow path names)) = some (.file content)

/-- Whether texts are the paths of the locations of a kind, each once and in the order of their names. -/
def Lists (path : List Char) (paths : List (List Char)) (p : Location → Prop) : Prop :=
  ∃ files : List Location, paths = files.map (pathBelow path) ∧ files.Pairwise (· < ·) ∧ ∀ names, names ∈ files ↔ p names

namespace Lists
variable {path : List Char} {paths : List (List Char)} {p q : Location → Prop}

theorem congr (h : Lists path paths p) (hpq : ∀ names, p names ↔ q names) : Lists path paths q := by
  obtain ⟨files, hpaths, hordered, hmem⟩ := h
  exact ⟨files, hpaths, hordered, fun names => (hmem names).trans (hpq names)⟩

theorem none (h : ∀ names, ¬ p names) : Lists path [] p :=
  ⟨[], rfl, .nil, fun names => ⟨nofun, fun hp => absurd hp (h names)⟩⟩

theorem here (h : ∀ names, p names ↔ names = []) : Lists path [path] p :=
  ⟨[[]], rfl, List.pairwise_singleton _ _, fun names => List.mem_singleton.trans (h names).symm⟩

/-- What is listed below each entry is listed below the directory. -/
theorem flatMap {entries : List (String × Node)} {g : String × Node → List (List Char)}
    (hsorted : entries.Pairwise fun a b => a.1 < b.1)
    (h : ∀ entry ∈ entries, Lists (entryPath path entry.1.toList) (g entry) fun below => p (entry.1 :: below)) :
    Lists path (entries.flatMap g) fun names => ∃ entry ∈ entries, ∃ below, names = entry.1 :: below ∧ p names := by
  choose! files hpaths hordered hmem using h
  refine ⟨entries.flatMap fun entry => (files entry).map (entry.1 :: ·), ?_, ?_, ?_⟩
  · rw [List.map_flatMap]
    refine List.flatMap_congr fun entry hentry => ?_
    rw [hpaths entry hentry, List.map_map]
    rfl
  · refine List.pairwise_flatMap.mpr ⟨fun entry hentry => ?_, hsorted.imp fun hlt => ?_⟩
    · refine List.pairwise_map.mpr ((hordered entry hentry).imp fun hlt => ?_)
      exact List.cons_lt_cons_iff.mpr (.inr ⟨rfl, hlt⟩)
    · intro names hnames names' hnames'
      obtain ⟨below, -, rfl⟩ := List.mem_map.mp hnames
      obtain ⟨below', -, rfl⟩ := List.mem_map.mp hnames'
      exact List.cons_lt_cons_iff.mpr (.inl hlt)
  · intro names
    simp only [List.mem_flatMap, List.mem_map]
    constructor
    · rintro ⟨entry, hentry, below, hbelow, rfl⟩
      exact ⟨entry, hentry, below, rfl, (hmem entry hentry below).mp hbelow⟩
    · rintro ⟨entry, hentry, below, rfl, hp⟩
      exact ⟨entry, hentry, below, (hmem entry hentry below).mpr hp, rfl⟩

end Lists

section Order
variable {α β : Type} {entries : List (String × α)}

theorem inOrder_map (f : String × α → List β) (entries : List (String × α)) :
    inOrder (entries.map fun entry => (entry.1, f entry)) = (entries.mergeSort fun a b => a.1 ≤ b.1).flatMap f := by
  rw [inOrder, ← List.map_mergeSort (r := fun a b => decide (a.1 ≤ b.1)) (fun _ _ _ _ => rfl), List.flatMap_map]

theorem inOrder_of_pairwise {entries : List (String × List β)} (h : entries.Pairwise fun a b => a.1 < b.1) :
    inOrder entries = entries.flatMap Prod.snd := by
  rw [inOrder, List.mergeSort_of_pairwise]
  exact h.imp fun hlt => decide_eq_true (le_of_lt hlt)

/-- The names of a directory are in their order after sorting, and no two are the same. -/
theorem pairwise_lt_mergeSort (h : (entries.map Prod.fst).Nodup) :
    (entries.mergeSort fun a b => a.1 ≤ b.1).Pairwise fun a b => a.1 < b.1 := by
  have hsorted : (entries.mergeSort fun a b => a.1 ≤ b.1).Pairwise fun a b => a.1 ≤ b.1 := by
    refine (List.pairwise_mergeSort (fun a b c hab hbc => ?_) (fun a b => ?_) entries).imp of_decide_eq_true
    · exact decide_eq_true ((of_decide_eq_true hab).trans (of_decide_eq_true hbc))
    · simpa using le_total a.1 b.1
  have hne : (entries.mergeSort fun a b => a.1 ≤ b.1).Pairwise fun a b => a.1 ≠ b.1 :=
    List.pairwise_map.mp (((List.mergeSort_perm entries _).map Prod.fst).nodup_iff.mpr h)
  exact hsorted.imp₂ (fun _ _ hle hne => lt_of_le_of_ne hle hne) hne

end Order

section Scan
variable {disk : Disk} {path : List Char} {here : Location} {entries : List (String × Node)} {name : String} {node : Node}
  {below : Location}

theorem leadsToFile_iff : leadsToFile disk path = true ↔ ∃ content, disk.find? (Path.walked path) = some (.file content) := by
  rw [leadsToFile]
  split
  · exact iff_of_true rfl ⟨_, ‹_›⟩
  · rename_i hne
    exact iff_of_false Bool.false_ne_true fun ⟨content, hfile⟩ => hne content hfile

theorem splitName_source {stem : String} (hstem : stem ≠ "") :
    splitName (stem ++ ".rs").toList = (stem.toList, some "rs".toList) := by
  have hname : (stem ++ ".rs").toList = stem.toList ++ '.' :: "rs".toList := by rw [String.toList_append]; simp
  have hup : stem.toList ++ '.' :: "rs".toList ≠ ['.', '.'] := by
    intro heq
    have hlast := congrArg List.getLast? heq
    rw [List.getLast?_append_of_ne_nil _ (List.cons_ne_nil _ _)] at hlast
    exact absurd hlast (by decide)
  rw [hname, splitName_append _ (by decide), if_pos ⟨fun hnil => hstem (String.toList_inj.mp hnil), hup⟩]

theorem isSourceName_iff : isSourceName name = true ↔ ∃ stem : String, stem ≠ "" ∧ name = stem ++ ".rs" := by
  rw [isSourceName, decide_eq_true_iff]
  constructor
  · intro h
    obtain ⟨stem, hstem, hname⟩ := eq_append_of_splitName h
    refine ⟨String.ofList stem, fun hnil => hstem ?_, String.toList_inj.mp ?_⟩
    · rw [← String.toList_ofList (l := stem), hnil]
      rfl
    · rw [hname, String.toList_append]
      simp
  · rintro ⟨stem, hstem, rfl⟩
    rw [splitName_source hstem]

theorem isPassedOver_eq_false_iff : isPassedOver name = false ↔ name.toList.head? ≠ some '.' ∧ name ≠ "target" := by
  simp [isPassedOver]

/-- What a scan finds at and below an entry of a directory. -/
def sourcesBelow (disk : Disk) (path : List Char) (entry : String × Node) : List (List Char) :=
  if isPassedOver entry.1 then [] else sourcesAt disk entry.1 (entryPath path entry.1.toList) entry.2

theorem sourcesIn_eq : sourcesIn disk path entries = entries.map fun entry => (entry.1, sourcesBelow disk path entry) := by
  induction entries with
  | nil => rw [sourcesIn, List.map_nil]
  | cons entry rest ih => rw [sourcesIn, ih, List.map_cons, sourcesBelow]

theorem sourcesBelow_eq (h : isPassedOver name = false) :
    sourcesBelow disk path (name, node) = sourcesAt disk name (entryPath path name.toList) node := by
  rw [sourcesBelow, if_neg (Bool.not_eq_true _ ▸ h)]

/-- A source is a file or a link in the tree. -/
theorem IsSource.exists {names : Location} (h : IsSource disk path node names) :
    ∃ found, node.find? names = some found ∧ ∀ inner, found ≠ .directory inner := by
  rcases h.file with ⟨content, hfile⟩ | ⟨target, content, hlink, -⟩
  · exact ⟨_, hfile, nofun⟩
  · exact ⟨_, hlink, nofun⟩

/-- No entry that is passed over is a source, and none is below it. -/
theorem lists_of_isPassedOver {directory : Node} (h : isPassedOver name = true) :
    Lists (entryPath path name.toList) (sourcesBelow disk path (name, node)) fun below =>
      IsSource disk path directory (name :: below) := by
  rw [sourcesBelow, if_pos h]
  refine .none fun below hsource => ?_
  have hkept := isPassedOver_eq_false_iff.mpr (hsource.kept name List.mem_cons_self)
  rw [h] at hkept
  cases hkept

theorem not_isSource_of_directory {names : Location} {inner : List (String × Node)}
    (h : node.find? names = some (.directory inner)) : ¬ IsSource disk path node names := by
  intro hsource
  obtain ⟨found, hfound, hne⟩ := hsource.exists
  exact hne inner (Option.some.inj (hfound.symm.trans h))

/-- The sources below a directory in another one are those below that directory. -/
theorem isSource_cons_iff {inner : List (String × Node)} (hlookup : entries.lookup name = some (.directory inner))
    (hname : isPassedOver name = false) : IsSource disk path (.directory entries) (name :: below) ↔
      IsSource disk (entryPath path name.toList) (.directory inner) below := by
  have hfind : (Node.directory entries).find? (name :: below) = (Node.directory inner).find? below := by
    rw [Node.find?, hlookup, Option.bind_some]
  -- Neither side holds of the directory itself; below it the last name is the same.
  cases below with
  | nil => exact iff_of_false (not_isSource_of_directory (by rw [hfind, Node.find?])) (not_isSource_of_directory rfl)
  | cons first rest =>
    have hkept := isPassedOver_eq_false_iff.mp hname
    constructor
    · intro h
      exact ⟨(List.forall_mem_cons.mp h.kept).2, h.named, by rw [← hfind]; exact h.file⟩
    · intro h
      exact ⟨List.forall_mem_cons.mpr ⟨hkept, h.kept⟩, h.named, by rw [hfind]; exact h.file⟩

/-- An entry that is no directory is the one file that may be found at it. -/
theorem isSource_cons_iff_of_ne_directory (hlookup : entries.lookup name = some node)
    (hnode : ∀ inner, node ≠ .directory inner) (hname : isPassedOver name = false)
    (hfile : ∀ content, node = .file content → leadsToFile disk (entryPath path name.toList) = true) :
    IsSource disk path (.directory entries) (name :: below) ↔
      (isSourceName name && leadsToFile disk (entryPath path name.toList)) = true ∧ below = [] := by
  have hfind : (Node.directory entries).find? (name :: below) = node.find? below := by
    rw [Node.find?, hlookup, Option.bind_some]
  cases below with
  | cons first rest =>
    have hnone : node.find? (first :: rest) = none := by
      cases node with
      | directory inner => exact absurd rfl (hnode inner)
      | _ => rfl
    refine iff_of_false (fun h => ?_) (fun h => List.cons_ne_nil _ _ h.2)
    obtain ⟨found, hfound, -⟩ := h.exists
    rw [hfind, hnone] at hfound
    cases hfound
  | nil =>
    rw [Bool.and_eq_true, isSourceName_iff, leadsToFile_iff]
    constructor
    · intro h
      obtain ⟨stem, hstem, hlast⟩ := h.named
      refine ⟨⟨⟨stem, hstem, Option.some.inj hlast⟩, ?_⟩, rfl⟩
      rcases h.file with ⟨content, h⟩ | ⟨target, content, -, h⟩
      · rw [hfind, Node.find?] at h
        exact leadsToFile_iff.mp (hfile content (Option.some.inj h))
      · exact ⟨content, h⟩
    · rintro ⟨⟨⟨stem, hstem, heq⟩, content, hleads⟩, -⟩
      refine ⟨List.forall_mem_singleton.mpr (isPassedOver_eq_false_iff.mp hname), ⟨stem, hstem, congrArg some heq⟩, ?_⟩
      rw [hfind, Node.find?]
      cases node with
      | file own => exact .inl ⟨own, rfl⟩
      | link target => exact .inr ⟨target, content, rfl, hleads⟩
      | directory inner => exact absurd rfl (hnode inner)

theorem lists_of_ne_directory (hlookup : entries.lookup name = some node) (hnode : ∀ inner, node ≠ .directory inner)
    (hname : isPassedOver name = false)
    (hfile : ∀ content, node = .file content → leadsToFile disk (entryPath path name.toList) = true) :
    Lists (entryPath path name.toList) (sourcesBelow disk path (name, node)) fun below =>
      IsSource disk path (.directory entries) (name :: below) := by
  have hsources : sourcesBelow disk path (name, node) =
      if isSourceName name && leadsToFile disk (entryPath path name.toList) then [entryPath path name.toList] else [] := by
    rw [sourcesBelow_eq hname]
    cases node with
    | directory inner => exact absurd rfl (hnode inner)
    | _ => rfl
  have hiff (below : Location) : IsSource disk path (.directory entries) (name :: below) ↔ _ ∧ below = [] :=
    isSource_cons_iff_of_ne_directory hlookup hnode hname hfile
  rw [hsources]
  split_ifs with hleaf
  · exact .here fun below => (hiff below).trans (and_iff_right hleaf)
  · exact .none fun below h => hleaf ((hiff below).mp h).1

theorem endsAt_entryPath (hname : Nameable name) (hlocate : disk.locate (Path.walked path) = .ok here)
    (hdirectory : disk.root.kind? here = some .directory) :
    disk.EndsAt (Path.walked (entryPath path name.toList)) here name := by
  have hpath : Path.ofString (String.ofList path) = Path.walked path := by rw [Path.ofString, String.toList_ofList]
  have hends := endsAt_entry hname (hpath ▸ hlocate) hdirectory
  rwa [String.toList_ofList, Path.ofString, String.toList_ofList] at hends

/-- The path of what is no link leads to it. -/
theorem locate_pathBelow {names : Location} {kind : Kind} (hnames : ∀ name ∈ names, Nameable name)
    (hlocate : disk.locate (Path.walked path) = .ok here) (hkind : disk.root.kind? (here ++ names) = some kind)
    (hlink : ∀ target, kind ≠ .link target) : disk.locate (Path.walked (pathBelow path names)) = .ok (here ++ names) := by
  induction names generalizing path here with
  | nil => rwa [List.append_nil, pathBelow, List.foldl_nil]
  | cons name rest ih =>
    obtain ⟨hname, hrest⟩ := List.forall_mem_cons.mp hnames
    have hdirectory : disk.root.kind? here = some .directory :=
      Node.directory_of_below (List.cons_ne_nil name rest) (by rw [hkind]; exact nofun)
    have hends := endsAt_entryPath hname hlocate hdirectory
    rw [List.append_cons] at hkind ⊢
    refine ih hrest ?_ hkind
    cases rest with
    | nil =>
      rw [List.append_nil] at hkind
      exact hends.locate hkind hlink
    | cons next rest =>
      exact hends.locate (Node.directory_of_below (List.cons_ne_nil next rest) (by rw [hkind]; exact nofun)) nofun

/-- The path of a file in a tree leads to it. -/
theorem find?_pathBelow {names : Location} {content : ByteArray} (horderly : node.Orderly)
    (hlocate : disk.locate (Path.walked path) = .ok here) (hhere : disk.root.find? here = some node)
    (hfile : node.find? names = some (.file content)) :
    disk.find? (Path.walked (pathBelow path names)) = some (.file content) := by
  have hlink : ∀ target, Kind.file content ≠ .link target := nofun
  have hfind : disk.root.find? (here ++ names) = some (.file content) := by
    rw [Node.find?_append, hhere, Option.bind_some, hfile]
  have hkind : disk.root.kind? (here ++ names) = some (.file content) := by rw [Node.kind?, hfind]; rfl
  rw [Disk.find?, locate_pathBelow (horderly.found hfile).2 hlocate hkind hlink]
  exact hfind

/-- A scan finds the sources of a directory, when the paths of the files in it lead to them. -/
theorem lists_sourcesIn {directory : Node} (horderly : directory.Orderly) {path : List Char} {entries : List (String × Node)}
    (hentries : directory = .directory entries)
    (hfiles : ∀ names content, directory.find? names = some (.file content) →
      disk.find? (Path.walked (pathBelow path names)) = some (.file content)) :
    Lists path (inOrder (sourcesIn disk path entries)) (IsSource disk path directory) := by
  -- The tree gives the induction; that paths of files lead to them is inherited by every directory in it.
  induction horderly generalizing path entries with
  | file _ => cases hentries
  | link _ => cases hentries
  | @directory entries hkeys hnames _ ih =>
    cases hentries
    have hmem (entry : String × Node) : entry ∈ (entries.mergeSort fun a b => a.1 ≤ b.1) ↔ entry ∈ entries :=
      (List.mergeSort_perm entries _).mem_iff
    rw [sourcesIn_eq, inOrder_map]
    refine (Lists.flatMap (p := IsSource disk path (.directory entries)) (pairwise_lt_mergeSort hkeys)
      fun entry hentry => ?_).congr fun names => ⟨fun ⟨_, _, _, _, h⟩ => h, fun h => ?_⟩
    · obtain ⟨name, node⟩ := entry
      rw [hmem] at hentry
      have hlookup := (lookup_eq_some_iff_mem hkeys).mpr hentry
      have hbelow (names : Location) (content : ByteArray) (hfile : node.find? names = some (.file content)) :
          disk.find? (Path.walked (pathBelow (entryPath path name.toList) names)) = some (.file content) :=
        hfiles (name :: names) content (by rw [Node.find?, hlookup, Option.bind_some, hfile])
      cases hname : isPassedOver name with
      | true => exact lists_of_isPassedOver hname
      | false =>
        cases node with
        | file content =>
          refine lists_of_ne_directory hlookup (fun _ h => Node.noConfusion h) hname fun _ _ => ?_
          exact leadsToFile_iff.mpr ⟨content, hbelow [] content rfl⟩
        | link target =>
          exact lists_of_ne_directory hlookup (fun _ h => Node.noConfusion h) hname fun _ h => Node.noConfusion h
        | directory inner =>
          rw [sourcesBelow_eq hname, sourcesAt]
          exact (ih _ hentry rfl hbelow).congr fun below => (isSource_cons_iff hlookup hname).symm
    · obtain ⟨found, hfound, hne⟩ := h.exists
      cases names with
      | nil => exact absurd (Option.some.inj hfound).symm (hne entries)
      | cons name below =>
        rw [Node.find?, Option.bind_eq_some_iff] at hfound
        obtain ⟨child, hchild, -⟩ := hfound
        exact ⟨(name, child), (hmem _).mpr ((lookup_eq_some_iff_mem hkeys).mp hchild), below, rfl, h⟩

end Scan

section Modules
variable {path : List Char} {above : Location} {stem : String}

/-- The module of the file `stem.rs` in the directory at a location below a path. -/
def moduleBelow (path : List Char) (above : Location) (stem : String) : Option String :=
  if stem = "main" ∨ stem = "lib" then none
  else if stem = "mod" then above.getLast?.or ((Path.ofText path).fileName?.map String.ofList)
  else some stem

/-- The name of a directory below a path, or of the one that the path leads to. -/
theorem fileName?_above {p : Files.Path} (hp : p.steps = (Path.ofText path).steps ++ above.map String.toList)
    (hnames : ∀ name ∈ above, Nameable name) :
    p.fileName?.map String.ofList = above.getLast?.or ((Path.ofText path).fileName?.map String.ofList) := by
  induction above using List.reverseRecOn with
  | nil =>
    rw [List.map_nil, List.append_nil] at hp
    rw [List.getLast?_nil, Option.none_or, Path.fileName?, Path.fileName?, hp]
  | append_singleton above last _ =>
    have hlast := hnames last (List.mem_append_right _ (List.mem_singleton_self last))
    rw [List.map_append, List.map_singleton, ← List.append_assoc] at hp
    have hname : p.fileName? = some last.toList := by
      refine Path.fileName?_eq_some_iff.mpr ⟨_, hp, ?_, ?_⟩
      · exact fun heq => hlast.proper.1 (String.toList_inj.mp heq)
      · exact fun heq => hlast.proper.2.1 (String.toList_inj.mp heq)
    rw [hname, List.getLast?_concat, Option.some_or, Option.map_some, String.ofList_toList]

theorem moduleOf?_pathBelow (hstem : stem ≠ "") (hnames : ∀ name ∈ above ++ [stem ++ ".rs"], Nameable name) :
    moduleOf? (String.ofList (pathBelow path (above ++ [stem ++ ".rs"]))) = moduleBelow path above stem := by
  have hfile := hnames _ (List.mem_append_right _ (List.mem_singleton_self _))
  have hsteps := Path.steps_ofText_pathBelow path hnames
  rw [List.map_append, ← List.append_assoc, List.map_singleton] at hsteps
  rw [moduleOf?, String.toList_ofList, moduleName?]
  generalize Path.ofText (pathBelow path (above ++ [stem ++ ".rs"])) = p at hsteps ⊢
  have hname : p.fileName? = some (stem ++ ".rs").toList := by
    refine Path.fileName?_eq_some_iff.mpr ⟨_, hsteps, ?_, ?_⟩
    · exact fun heq => hfile.proper.1 (String.toList_inj.mp heq)
    · exact fun heq => hfile.proper.2.1 (String.toList_inj.mp heq)
  have hparent : p.parent? = some ⟨p.absolute, (Path.ofText path).steps ++ above.map String.toList⟩ := by
    rw [Path.parent?, hsteps, if_neg (by simp), List.dropLast_concat]
  have habove : (Files.Path.mk p.absolute ((Path.ofText path).steps ++ above.map String.toList)).fileName?.map String.ofList =
      above.getLast?.or ((Path.ofText path).fileName?.map String.ofList) :=
    fileName?_above rfl fun name hname => hnames name (List.mem_append_left _ hname)
  rw [hname, Option.bind_eq_bind, Option.bind_some, hparent, Option.bind_some, splitName_source hstem, moduleBelow, ← habove]
  simp only [String.toList_inj]
  split_ifs
  · rfl
  · rfl
  · rw [Option.map_some, String.ofList_toList]

end Modules

section Found
variable {disk : Disk} {path : String} {directory : Node} {files : List Location} {above : Location} {stem : String}

/-- The path under which a scan lists a file below a directory. -/
def sourcePath (path : String) (names : Location) : String := String.ofList (pathBelow path.toList names)

theorem module_of_readSource {file : SourceFile} (h : readSource disk path = .ok file) : file.module = moduleOf? path := by
  rw [readSource] at h
  split at h
  · cases h
  · -- The equation of `ofText` takes long to make, as the reader of items is unfolded for it.
    delta SourceFile.ofText at h
    split at h
    · cases h
      rfl
    · cases h

/-- What a scan has found in the directory that a path leads to. -/
structure Scanned (disk : Disk) (path : String) (directory : Node) (files : List Location) : Prop where
  mem_iff : ∀ names, names ∈ files ↔ IsSource disk path.toList directory names
  /-- Depth first, and in each directory by name: two files are in the order of the first names in which they differ, and
  names in that of their bytes (`Text.lt_iff_bytes_lt`). -/
  ordered : files.Pairwise (· < ·)
  once : (files.map (sourcePath path)).Nodup
  leads : ∀ names ∈ files, ∃ content, disk.find? (Path.ofString (sourcePath path names)) = some (.file content)
  modules : ∀ above stem, above ++ [stem ++ ".rs"] ∈ files →
    moduleOf? (sourcePath path (above ++ [stem ++ ".rs"])) = moduleBelow path.toList above stem
  read : ∀ above stem file, above ++ [stem ++ ".rs"] ∈ files →
    readSource disk (sourcePath path (above ++ [stem ++ ".rs"])) = .ok file →
      file.module = moduleBelow path.toList above stem

/-- A location that ends in the name of a source file is that of one with a stem. -/
theorem IsSource.stem_ne (h : IsSource disk path.toList directory (above ++ [stem ++ ".rs"])) : stem ≠ "" := by
  obtain ⟨stem', hstem, hlast⟩ := h.named
  rw [List.getLast?_concat, Option.some.injEq, String.append_left_inj] at hlast
  rwa [hlast]

/-- Paths that are listed in the order of their locations make up what a scan has found. -/
theorem scanned_of_mem_iff {location : Location} (horderly : directory.Orderly)
    (hlocate : disk.locate (Path.ofString path) = .ok location) (hdirectory : disk.root.find? location = some directory)
    (hordered : files.Pairwise (· < ·)) (hmem : ∀ names, names ∈ files ↔ IsSource disk path.toList directory names) :
    Scanned disk path directory files := by
  have hnames (names : Location) (hfile : names ∈ files) : ∀ name ∈ names, Nameable name := by
    obtain ⟨found, hfound, -⟩ := ((hmem names).mp hfile).exists
    exact (horderly.found hfound).2
  have hmodule (above : Location) (stem : String) (hfile : above ++ [stem ++ ".rs"] ∈ files) :
      moduleOf? (sourcePath path (above ++ [stem ++ ".rs"])) = moduleBelow path.toList above stem :=
    moduleOf?_pathBelow ((hmem _).mp hfile).stem_ne (hnames _ hfile)
  refine ⟨hmem, hordered, ?_, ?_, hmodule, ?_⟩
  · refine List.Nodup.map_on (fun names hfile names' hfile' heq => ?_) (hordered.imp fun hlt => ne_of_lt hlt)
    exact pathBelow_inj (hnames _ hfile) (hnames _ hfile') (String.ofList_injective heq)
  · intro names hfile
    rw [sourcePath, Path.ofString, String.toList_ofList]
    rcases ((hmem names).mp hfile).file with ⟨content, hcontent⟩ | ⟨target, content, -, hcontent⟩
    · exact ⟨content, find?_pathBelow horderly hlocate hdirectory hcontent⟩
    · exact ⟨content, hcontent⟩
  · intro above stem file hfile hread
    rw [module_of_readSource hread, hmodule above stem hfile]

/-- A scan finds exactly the sources of a project, whatever its own directory is called. -/
theorem scanned_of_isDirectory (horderly : disk.root.Orderly) (hpath : disk.isDirectory (Path.ofString path) = true) :
    ∃ directory files, disk.find? (Path.ofString path) = some directory ∧
      scan disk path = .ok (files.map (sourcePath path)) ∧ Scanned disk path directory files := by
  obtain ⟨location, hlocate, hkind⟩ := Disk.isDirectory_iff.mp hpath
  obtain ⟨entries, hentries⟩ := Node.kind?_eq_directory_iff.mp hkind
  have hdirectory := (horderly.found hentries).1
  obtain ⟨files, hpaths, hordered, hmem⟩ := lists_sourcesIn hdirectory rfl
    fun names content => find?_pathBelow hdirectory hlocate hentries
  refine ⟨.directory entries, files, ?_, ?_, scanned_of_mem_iff hdirectory hlocate hentries hordered hmem⟩
  · rw [Disk.find?, hlocate]
    exact hentries
  · rw [scan, hlocate]
    simp only [hentries, hpaths, List.map_map]
    rfl

/-- A disk with a project in a directory of a name that is passed over inside of projects. -/
def workshop : Disk :=
  ⟨.directory
    [("kit", .directory [("tool.rs", .file "".toUTF8)]),
      ("target", .directory
        [(".git", .directory [("hook.rs", .file "".toUTF8)]), ("mod.rs", .file "mod src;".toUTF8),
          ("src", .directory
            [("kit", .link "../../kit"), ("kit.rs", .link "../../kit/tool.rs"), ("lost.rs", .link "gone.rs"),
              ("main.rs", .file "fn main() {}".toUTF8), ("shop", .directory [("mod.rs", .file "".toUTF8)]),
              ("shop.rs.bak", .file "".toUTF8), ("target", .directory [("old.rs", .file "".toUTF8)])])])], []⟩

theorem scanned_workshop : workshop.root.Orderly ∧ workshop.isDirectory (Path.ofString "target/") = true ∧
    scan workshop "target/" =
      .ok ["target/mod.rs", "target/src/kit.rs", "target/src/main.rs", "target/src/shop/mod.rs"] ∧
    ∃ directory files, workshop.find? (Path.ofString "target/") = some directory ∧
      scan workshop "target/" = .ok (files.map (sourcePath "target/")) ∧ Scanned workshop "target/" directory files := by
  have horderly : workshop.root.Orderly := by
    simp only [workshop, Node.orderly_directory_iff, List.forall_mem_cons, List.not_mem_nil, false_implies, implies_true,
      Node.Orderly.file, Node.Orderly.link]
    decide +kernel
  have hpath : workshop.isDirectory (Path.ofString "target/") = true := by decide +kernel
  have hlocate : workshop.locate (Path.ofString "target/") = .ok ["target"] := by decide +kernel
  have hfind : workshop.root.find? ["target"] = some (.directory _) := rfl
  refine ⟨horderly, hpath, ?_, scanned_of_isDirectory horderly hpath⟩
  simp only [scan, hlocate, hfind]
  simp (disch := decide) only [sourcesIn, sourcesAt, inOrder_of_pairwise]
  decide +kernel

end Found
end ApiHandbook.Project
