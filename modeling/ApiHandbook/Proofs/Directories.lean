import ApiHandbook.Files.Export
import ApiHandbook.Proofs.Walks

/-! Directories that are made where they are missing: the tree only grows, the path leads to a directory afterwards, and
unless it goes up that directory is new or the path led to it before. -/
namespace ApiHandbook.Files

namespace Disk

/-- Whether the working directory is a directory of the tree, and its names are names of entries. -/
structure Sound (disk : Disk) : Prop where
  here : disk.root.kind? disk.here = some .directory
  names : ∀ name ∈ disk.here, Proper name

instance (disk : Disk) : Decidable disk.Sound :=
  decidable_of_iff (disk.root.kind? disk.here = some .directory ∧ ∀ name ∈ disk.here, Proper name)
    ⟨fun ⟨hhere, hnames⟩ => ⟨hhere, hnames⟩, fun ⟨hhere, hnames⟩ => ⟨hhere, hnames⟩⟩

/-- Whether a path leads to a location through no more links than a walk follows. -/
def Reaches (disk : Disk) (p : Path) (location : Location) : Prop :=
  ∃ links ≤ linkLimit, Leads disk.root (startOf disk.here p) p.steps links location

variable {disk disk' : Disk} {fl : Bool} {p : Path} {location : Location}

theorem Sound.root (h : disk.Sound) : disk.root.kind? [] = some .directory := by
  by_cases hnil : disk.here = []
  · exact hnil ▸ h.here
  · have hthere : disk.root.kind? ([] ++ disk.here) ≠ none := by
      rw [List.nil_append, h.here]
      exact nofun
    exact Node.directory_of_below hnil hthere

theorem place_ok {place : Place} (h : disk.place fl p = .ok place) :
    (∀ step ∈ p.steps, '\x00' ∉ step) ∧ walk disk.root fl linkLimit (startOf disk.here p) p.steps = .ok place := by
  rw [Disk.place] at h
  split_ifs at h with hnul _
  simp only [List.any_eq_true, List.contains_iff_mem, not_exists, not_and] at hnul
  exact ⟨hnul, h⟩

theorem place_eq (hnul : ∀ step ∈ p.steps, '\x00' ∉ step) (hsteps : p.absolute = true ∨ p.steps ≠ []) :
    disk.place fl p = walk disk.root fl linkLimit (startOf disk.here p) p.steps := by
  have hany : ¬ p.steps.any (·.contains '\x00') = true := by
    simpa only [List.any_eq_true, List.contains_iff_mem, not_exists, not_and] using hnul
  have hempty : ¬ (!p.absolute && p.steps.isEmpty) = true := by
    rw [Bool.and_eq_true, Bool.not_eq_true', List.isEmpty_iff]
    rintro ⟨habsolute, hnil⟩
    exact hsteps.elim (fun h => Bool.noConfusion (h.symm.trans habsolute)) fun h => h hnil
  rw [Disk.place, if_neg hany, if_neg hempty]

theorem place_of_locate (h : disk.locate p = .ok location) : disk.place true p = .ok (.taken location) := by
  rw [locate] at h
  split at h
  · rwa [← Except.ok.inj h]
  · exact absurd h nofun
  · exact absurd h nofun

theorem reaches_of_locate (h : disk.locate p = .ok location) : disk.Reaches p location :=
  leads_of_walk (place_ok (place_of_locate h)).2

theorem Reaches.locate (h : disk.Reaches p location) (hnul : ∀ step ∈ p.steps, '\x00' ∉ step)
    (hsteps : p.absolute = true ∨ p.steps ≠ []) : disk.locate p = .ok location := by
  obtain ⟨links, hlinks, hleads⟩ := h
  rw [Disk.locate, place_eq hnul hsteps, hleads.walk_eq hlinks]

theorem locate_of_find? {node : Node} (h : disk.find? p = some node) :
    ∃ location, disk.locate p = .ok location ∧ disk.root.find? location = some node := by
  rw [find?] at h
  split at h
  · exact ⟨_, ‹_›, h⟩
  · cases h

theorem isDirectory_iff : disk.isDirectory p = true ↔
    ∃ location, disk.locate p = .ok location ∧ disk.root.kind? location = some .directory := by
  rw [isDirectory, find?]
  cases hlocate : disk.locate p with
  | error fault => exact ⟨nofun, fun ⟨_, h, _⟩ => absurd h nofun⟩
  | ok location =>
    simp only [Except.ok.injEq, exists_eq_left', Node.kind?_eq_directory_iff]
    cases disk.root.find? location with
    | none => simp
    | some node => cases node <;> simp

theorem Reaches.unique {location' : Location} (h : disk.Reaches p location) (h' : disk.Reaches p location') :
    location = location' := by
  obtain ⟨_, _, hleads⟩ := h
  obtain ⟨_, _, hleads'⟩ := h'
  exact hleads.unique hleads'

theorem Reaches.grown (h : disk.Reaches p location) (hhere : disk'.here = disk.here)
    (hgrown : Grown disk.root disk'.root) : disk'.Reaches p location := by
  obtain ⟨links, hlinks, hleads⟩ := h
  exact ⟨links, hlinks, hhere ▸ hleads.grown hgrown⟩

theorem Reaches.proper (hsound : disk.Sound) (h : disk.Reaches p location) : ∀ name ∈ location, Proper name := by
  obtain ⟨_, _, hleads⟩ := h
  exact hleads.proper (startOf_cases (P := fun start => ∀ name ∈ start, Proper name) nofun hsound.names p)

/-- What is located exists. -/
theorem kind?_of_locate (hsound : disk.Sound) (h : disk.locate p = .ok location) : disk.root.kind? location ≠ none := by
  obtain ⟨_, _, hleads⟩ := reaches_of_locate h
  have hroot : disk.root.kind? [] ≠ none := by rw [hsound.root]; exact nofun
  have hhere : disk.root.kind? disk.here ≠ none := by rw [hsound.here]; exact nofun
  exact hleads.exists hroot (startOf_cases (P := fun start => disk.root.kind? start ≠ none) hroot hhere p)

theorem exists?_of_locate (hsound : disk.Sound) (h : disk.locate p = .ok location) : disk.exists? p = true := by
  rw [exists?, find?, h, Option.isSome_iff_ne_none]
  exact fun hnone => kind?_of_locate hsound h (Node.kind?_eq_none_iff.mpr hnone)

theorem exists?_congr {p' : Path} (h : disk.place true p = disk.place true p') : disk.exists? p = disk.exists? p' := by
  rw [exists?, exists?, find?, find?, locate, locate, h]

/-- The place of a name in a directory, by their names from the root. -/
theorem place_below {name : String} (hproper : ∀ name ∈ location, Proper name)
    (hdirectory : disk.root.kind? location = some .directory)
    (hnul : ∀ step ∈ (location ++ [name]).map String.toList, '\x00' ∉ step) :
    disk.place fl ⟨true, (location ++ [name]).map String.toList⟩ =
      walk disk.root fl linkLimit location [name.toList] := by
  have hleads : Leads disk.root [] (location.map String.toList) 0 ([] ++ location) := leads_names hproper hdirectory
  rw [place_eq hnul (.inl rfl), List.map_append]
  exact hleads.walk_append (Nat.zero_le _) (.inr (List.cons_ne_nil _ _))

theorem makeDirectory_ok (h : disk.makeDirectory p = .ok disk') :
    ∃ above name directory, p.steps = above ++ [name.toList] ∧ disk.Reaches ⟨p.absolute, above⟩ directory ∧ Proper name ∧
      disk.root.kind? directory = some .directory ∧ disk.root.kind? (directory ++ [name]) = none ∧
      disk' = disk.insert (directory ++ [name]) (.directory []) := by
  rw [makeDirectory] at h
  cases hplace : disk.place false p with
  | error fault => rw [hplace] at h; exact absurd h nofun
  | ok place =>
    rw [hplace] at h
    cases place with
    | taken location => exact absurd h nofun
    | free directory name =>
      obtain ⟨above, links, hsteps, hlinks, hleads, hname, hdirectory, hfree⟩ := leads_of_free (place_ok hplace).2
      exact ⟨above, name, directory, hsteps, ⟨links, hlinks, hleads⟩, hname, hdirectory, hfree, (Except.ok.inj h).symm⟩

/-- A directory is not missing where the one above it is there. -/
theorem makeDirectory_ne_notFound {absolute : Bool} {above : List (List Char)} (step : List Char)
    (habove : disk.Reaches ⟨absolute, above⟩ location) :
    disk.makeDirectory ⟨absolute, above ++ [step]⟩ ≠ .error .notFound := by
  obtain ⟨links, hlinks, hleads⟩ := habove
  rw [makeDirectory]
  by_cases hnul : ∀ step' ∈ above ++ [step], '\x00' ∉ step'
  · have hwalk : disk.place false ⟨absolute, above ++ [step]⟩ =
        walk disk.root false (linkLimit - links) location [step] := by
      rw [place_eq hnul (.inr (List.append_ne_nil_of_right_ne_nil above (List.cons_ne_nil step [])))]
      exact hleads.walk_append hlinks (.inr (List.cons_ne_nil step []))
    have hfound := walk_last_ne_notFound disk.root (linkLimit - links) location step
    rw [← hwalk] at hfound
    cases hplace : disk.place false ⟨absolute, above ++ [step]⟩ with
    | ok place =>
      cases place with
      | taken location => exact nofun
      | free directory name => exact nofun
    | error fault => exact fun h => hfound (hplace.trans (congrArg _ (Except.error.inj h)))
  · rw [Disk.place, if_pos]
    · exact nofun
    · simpa only [List.any_eq_true, List.contains_iff_mem, not_forall, not_not, exists_prop] using hnul

end Disk

/-- Whether work on a disk succeeds with a result and a disk that have a property. -/
def Leaves {α : Type} (x : EStateM.Result Failure Disk α) (P : α → Disk → Prop) : Prop :=
  ∃ a disk, x = .ok a disk ∧ P a disk

instance {α : Type} (x : EStateM.Result Failure Disk α) (P : α → Disk → Prop) [∀ a disk, Decidable (P a disk)] :
    Decidable (Leaves x P) :=
  match x with
  | .ok a disk => decidable_of_iff (P a disk) ⟨fun h => ⟨a, disk, rfl, h⟩, fun ⟨_, _, heq, h⟩ => by cases heq; exact h⟩
  | .error _ _ => .isFalse fun ⟨_, _, heq, _⟩ => nomatch heq

namespace Action
variable {α β : Type}

theorem run_bind (x : Action α) (f : α → Action β) (disk : Disk) :
    (x >>= f) disk = match x disk with
      | .ok a between => f a between
      | .error failure between => .error failure between := by
  change EStateM.bind x f disk = _
  rw [EStateM.bind]
  cases x disk <;> rfl

theorem run_get (disk : Disk) : (get : Action Disk) disk = .ok disk disk := rfl

theorem run_modify (f : Disk → Disk) (disk : Disk) : (modify f : Action Unit) disk = .ok () (f disk) := rfl

end Action

section Ensure
variable {disk disk' : Disk}

theorem Action.bind_ok {α β : Type} {x : Action α} {f : α → Action β} {b : β} :
    (x >>= f) disk = .ok b disk' ↔ ∃ a between, x disk = .ok a between ∧ f a between = .ok b disk' := by
  rw [run_bind]
  cases x disk with
  | ok a between => exact ⟨fun h => ⟨a, between, rfl, h⟩, fun ⟨_, _, h, h'⟩ => by cases h; exact h'⟩
  | error failure between => exact ⟨nofun, fun ⟨_, _, h, _⟩ => absurd h nofun⟩

theorem change_ok {f : Disk → Except FileFault Disk} : change f disk = .ok () disk' ↔ f disk = .ok disk' := by
  rw [change]
  cases f disk with
  | ok made => exact ⟨fun h => by cases h; rfl, fun h => by cases h; rfl⟩
  | error fault => exact ⟨nofun, nofun⟩

/-- A directory that is made or was there stands where its path leads, and is where nothing stood if it was made. -/
theorem ensureDirectory_ok {p : Path} (h : ensureDirectory p disk = .ok () disk') :
    disk'.here = disk.here ∧ Grown disk.root disk'.root ∧ ∃ location, disk'.Reaches p location ∧
      disk'.root.kind? location = some .directory ∧ (disk' = disk ∨ disk.root.kind? location = none) := by
  rw [ensureDirectory, change_ok] at h
  cases hmade : disk.makeDirectory p with
  | error fault =>
    simp only [hmade] at h
    split_ifs at h with hdirectory
    obtain rfl := Except.ok.inj h
    obtain ⟨location, hlocate, hkind⟩ := Disk.isDirectory_iff.mp hdirectory
    exact ⟨rfl, .refl _, location, Disk.reaches_of_locate hlocate, hkind, .inl rfl⟩
  | ok made =>
    simp only [hmade] at h
    obtain rfl := Except.ok.inj h
    obtain ⟨above, name, directory, hsteps, habove, hname, hdirectory, hfree, rfl⟩ := Disk.makeDirectory_ok hmade
    have hgrown : Grown disk.root (disk.root.insert (directory ++ [name]) (.directory [])) := .insert hdirectory hfree
    have hkind : (disk.root.insert (directory ++ [name]) (.directory [])).kind? (directory ++ [name]) =
        some .directory := Node.kind?_insert_self hdirectory name _
    obtain ⟨links, hlinks, hleads⟩ := habove
    refine ⟨rfl, hgrown, directory ++ [name], ⟨links, hlinks, ?_⟩, hkind, .inr hfree⟩
    rw [hsteps]
    exact (hleads.grown hgrown).append (.move (hgrown.kept hdirectory) (.down hname hkind nofun) .done)

theorem ensureDirectoriesFrom_cons (absolute : Bool) (step : List Char) (above : List (List Char)) :
    ensureDirectoriesFrom absolute (step :: above) disk =
      match disk.makeDirectory ⟨absolute, above.reverse ++ [step]⟩ with
      | .error .notFound =>
        (ensureDirectoriesFrom absolute above >>= fun _ => ensureDirectory ⟨absolute, above.reverse ++ [step]⟩) disk
      | _ => ensureDirectory ⟨absolute, above.reverse ++ [step]⟩ disk := by
  rw [ensureDirectoriesFrom, List.reverse_cons]
  change (match disk.makeDirectory ⟨absolute, above.reverse ++ [step]⟩ with
    | .error .notFound => do
      ensureDirectoriesFrom absolute above
      ensureDirectory ⟨absolute, above.reverse ++ [step]⟩
    | _ => ensureDirectory ⟨absolute, above.reverse ++ [step]⟩ : Action Unit) disk = _
  cases disk.makeDirectory ⟨absolute, above.reverse ++ [step]⟩ with
  | ok made => rfl
  | error fault => cases fault <;> rfl

/-- Below a new directory of a grown tree everything is new, as long as a path does not go up. -/
theorem Grown.new_below {root root' : Node} (hgrown : Grown root root') {above location : Location}
    (hnew : root.kind? above = none) {step : List Char} (hstep : step ≠ ['.', '.']) {links : Nat}
    (h : Leads root' above [step] links location) : root.kind? location = none := by
  cases h with
  | move _ hmove hdone =>
    cases hdone
    cases hmove with
    | stay => exact hnew
    | up => exact absurd rfl hstep
    | down _ _ _ => exact Node.kind?_append_eq_none hnew _
  | follow _ hlink _ =>
    have hkind := hgrown.new (Node.kind?_append_eq_none hnew _) hlink
    cases hkind

/-- Directories that are made lead to a directory. If the path does not go up, it either led there before, or nothing
stood there. -/
theorem ensureDirectoriesFrom_ok {absolute : Bool} {steps : List (List Char)} (hsound : disk.Sound)
    (h : ensureDirectoriesFrom absolute steps disk = .ok () disk') :
    disk'.here = disk.here ∧ Grown disk.root disk'.root ∧ ∃ location, disk'.Reaches ⟨absolute, steps.reverse⟩ location ∧
      disk'.root.kind? location = some .directory ∧
      (['.', '.'] ∉ steps → disk.Reaches ⟨absolute, steps.reverse⟩ location ∨ disk.root.kind? location = none) := by
  induction steps generalizing disk' with
  | nil =>
    cases h
    have hstart := startOf_cases (P := fun start => disk.root.kind? start = some .directory) hsound.root hsound.here
      ⟨absolute, []⟩
    have hreaches : disk.Reaches ⟨absolute, []⟩ (startOf disk.here ⟨absolute, []⟩) := ⟨0, Nat.zero_le _, .done⟩
    exact ⟨rfl, .refl _, _, hreaches, hstart, fun _ => .inl hreaches⟩
  | cons step above ih =>
    rw [List.reverse_cons]
    rw [ensureDirectoriesFrom_cons] at h
    by_cases hmissing : disk.makeDirectory ⟨absolute, above.reverse ++ [step]⟩ = .error .notFound
    · simp only [hmissing, Action.bind_ok] at h
      obtain ⟨_, between, habove, h⟩ := h
      obtain ⟨hhere, hgrown, middle, hmiddle, -, hbefore⟩ := ih habove
      obtain ⟨hhere', hgrown', location, hlocation, hkind, hsame⟩ := ensureDirectory_ok h
      refine ⟨hhere'.trans hhere, hgrown.trans hgrown', location, hlocation, hkind, fun hup => .inr ?_⟩
      obtain ⟨hstep, hup⟩ := not_or.mp fun h => hup (List.mem_cons.mpr h)
      rcases hsame with rfl | hnone
      · -- The directory above is new, since the path would not have been missing below an old one.
        have hnew : disk.root.kind? middle = none := (hbefore hup).resolve_left fun hold =>
          Disk.makeDirectory_ne_notFound step hold hmissing
        obtain ⟨links, hlinks, hleads⟩ := hlocation
        obtain ⟨there, i, j, hthere, hleads, hij⟩ := hleads.split
        obtain rfl : there = middle := Disk.Reaches.unique ⟨i, by omega, hthere⟩ hmiddle
        exact hgrown.new_below hnew (Ne.symm hstep) hleads
      · rcases hgrown location with heq | ⟨hnone', -⟩
        · exact heq.symm.trans hnone
        · exact hnone'
    · have hensure : ensureDirectory ⟨absolute, above.reverse ++ [step]⟩ disk = .ok () disk' := by
        split at h
        · exact absurd ‹_› hmissing
        · exact h
      obtain ⟨hhere, hgrown, location, hlocation, hkind, hsame⟩ := ensureDirectory_ok hensure
      refine ⟨hhere, hgrown, location, hlocation, hkind, fun _ => ?_⟩
      rcases hsame with rfl | hnone
      · exact .inl hlocation
      · exact .inr hnone

theorem ensureDirectories_ok {p : Path} (hsound : disk.Sound) (h : ensureDirectories p disk = .ok () disk') :
    disk'.here = disk.here ∧ Grown disk.root disk'.root ∧ ∃ location, disk'.Reaches p location ∧
      disk'.root.kind? location = some .directory ∧
      (['.', '.'] ∉ p.steps → disk.Reaches p location ∨ disk.root.kind? location = none) := by
  have hmade := ensureDirectoriesFrom_ok hsound h
  rw [List.reverse_reverse, List.mem_reverse] at hmade
  exact hmade

/-- Nothing is made where the path leads to a directory. -/
theorem ensureDirectories_of_locate {p : Path} {location : Location} (h : disk.locate p = .ok location)
    (hdirectory : disk.root.kind? location = some .directory) : ensureDirectories p disk = .ok () disk := by
  obtain ⟨absolute, steps⟩ := p
  have hisDirectory := Disk.isDirectory_iff.mpr ⟨location, h, hdirectory⟩
  rw [ensureDirectories]
  cases hsteps : steps.reverse with
  | nil => rfl
  | cons step above =>
    obtain rfl : steps = above.reverse ++ [step] := by rw [← List.reverse_cons, ← hsteps, List.reverse_reverse]
    have hmade : disk.makeDirectory ⟨absolute, above.reverse ++ [step]⟩ = .error .alreadyExists := by
      obtain ⟨hnul, hwalk⟩ := Disk.place_ok (Disk.place_of_locate h)
      obtain ⟨links, hlinks, hleads⟩ := leads_of_walk hwalk
      obtain ⟨taken, htaken⟩ := hleads.taken hlinks
      have hsteps := List.append_ne_nil_of_right_ne_nil above.reverse (List.cons_ne_nil step [])
      rw [Disk.makeDirectory, Disk.place_eq hnul (.inr hsteps), htaken]
      rfl
    rw [ensureDirectoriesFrom_cons, hmade]
    simp only
    rw [ensureDirectory, change_ok, hmade]
    exact if_pos hisDirectory

end Ensure
end ApiHandbook.Files
