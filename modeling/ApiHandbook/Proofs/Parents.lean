import ApiHandbook.Proofs.Directories

/-! What is added to a disk when the directories of a path are made, whether or not they can all be made. -/
namespace ApiHandbook.Files

/-- The disk after work that succeeded or failed. -/
def leftBy {α : Type} : EStateM.Result Failure Disk α → Disk
  | .ok _ disk => disk
  | .error _ disk => disk

/-- Whether a disk is another one to which nothing is added but directories that a path names, each in the directory that
the path leads to up to that name. -/
structure Disk.Paved (disk : Disk) (p : Path) (disk' : Disk) : Prop where
  here : disk'.here = disk.here
  kept : ∀ location, disk'.root.kind? location = disk.root.kind? location ∨
    disk.root.kind? location = none ∧ disk'.root.kind? location = some .directory ∧
      ∃ above name directory, above ++ [name.toList] <+: p.steps ∧ disk'.Reaches ⟨p.absolute, above⟩ directory ∧
        location = directory ++ [name]

namespace Disk.Paved
variable {disk disk' disk'' : Disk} {p p' : Path}

theorem refl (disk : Disk) (p : Path) : disk.Paved p disk := ⟨rfl, fun _ => .inl rfl⟩

theorem grown (h : disk.Paved p disk') : Grown disk.root disk'.root := fun location =>
  (h.kept location).imp_right fun ⟨hnone, hdirectory, _⟩ => ⟨hnone, hdirectory⟩

theorem trans (h : disk.Paved p disk') (h' : disk'.Paved p disk'') : disk.Paved p disk'' := by
  refine ⟨h'.here.trans h.here, fun location => ?_⟩
  rcases h'.kept location with heq' | ⟨hnone', hdirectory', hnew'⟩
  · rcases h.kept location with heq | ⟨hnone, hdirectory, above, name, directory, hsteps, habove, rfl⟩
    · exact .inl (heq'.trans heq)
    · exact .inr ⟨hnone, heq'.trans hdirectory, above, name, directory, hsteps, habove.grown h'.here h'.grown, rfl⟩
  · rcases h.kept location with heq | ⟨hnone, -, -⟩
    · exact .inr ⟨heq.symm.trans hnone', hdirectory', hnew'⟩
    · exact .inr ⟨hnone, hdirectory', hnew'⟩

theorem mono (h : disk.Paved p disk') (habsolute : p.absolute = p'.absolute) (hsteps : p.steps <+: p'.steps) :
    disk.Paved p' disk' := by
  refine ⟨h.here, fun location => (h.kept location).imp_right fun ⟨hnone, hdirectory, hnew⟩ => ?_⟩
  obtain ⟨above, name, directory, hbelow, habove, rfl⟩ := hnew
  exact ⟨hnone, hdirectory, above, name, directory, hbelow.trans hsteps, habsolute ▸ habove, rfl⟩

theorem sound (h : disk.Paved p disk') (hsound : disk.Sound) : disk'.Sound :=
  ⟨h.here ▸ h.grown.kept hsound.here, h.here ▸ hsound.names⟩

end Disk.Paved

section Make
variable {disk made : Disk} {p : Path}

theorem paved_of_makeDirectory (h : disk.makeDirectory p = .ok made) : disk.Paved p made := by
  obtain ⟨above, name, directory, hsteps, hreaches, -, hdirectory, hfree, rfl⟩ := Disk.makeDirectory_ok h
  have hgrown : Grown disk.root (disk.root.insert (directory ++ [name]) (.directory [])) := .insert hdirectory hfree
  refine ⟨rfl, fun location => ?_⟩
  by_cases hlocation : location = directory ++ [name]
  · subst hlocation
    exact .inr ⟨hfree, Node.kind?_insert_self hdirectory name _, above, name, directory, hsteps ▸ List.prefix_rfl,
      hreaches.grown rfl hgrown, rfl⟩
  · refine .inl ?_
    by_cases hbelow : directory ++ [name] <+: location
    · obtain ⟨below, rfl⟩ := hbelow
      obtain ⟨step, rest, rfl⟩ := List.exists_cons_of_ne_nil fun hnil : below = [] => hlocation (by simp [hnil])
      exact (Node.kind?_insert_below hdirectory name _ _).trans (Node.kind?_append_eq_none hfree _).symm
    · exact Node.kind?_insert hdirectory name hbelow _

/-- Work in two parts paves a path if the first part does, and the second one does wherever the first one succeeds. -/
theorem paved_bind {α β : Type} {x : Action α} {f : α → Action β} (hfirst : disk.Paved p (leftBy (x disk)))
    (hsecond : ∀ a between, x disk = .ok a between → between.Paved p (leftBy (f a between))) :
    disk.Paved p (leftBy ((x >>= f) disk)) := by
  rw [Action.run_bind]
  cases hrun : x disk with
  | error failure between => rwa [hrun] at hfirst
  | ok a between =>
    rw [hrun] at hfirst
    exact hfirst.trans (hsecond a between hrun)

theorem paved_ensureDirectory (disk : Disk) (p : Path) : disk.Paved p (leftBy (ensureDirectory p disk)) := by
  rw [ensureDirectory, change]
  cases hmade : disk.makeDirectory p with
  | ok made => exact paved_of_makeDirectory hmade
  | error fault =>
    simp only
    split_ifs <;> exact .refl disk p

theorem paved_ensureDirectoriesFrom (disk : Disk) (absolute : Bool) (steps : List (List Char)) :
    disk.Paved ⟨absolute, steps.reverse⟩ (leftBy (ensureDirectoriesFrom absolute steps disk)) := by
  induction steps with
  | nil => exact .refl disk _
  | cons step above ih =>
    rw [ensureDirectoriesFrom_cons, List.reverse_cons]
    split
    · have habove : disk.Paved ⟨absolute, above.reverse ++ [step]⟩ (leftBy (ensureDirectoriesFrom absolute above disk)) :=
        ih.mono rfl (List.prefix_append _ _)
      exact paved_bind habove fun _ between _ => paved_ensureDirectory between _
    · exact paved_ensureDirectory disk _

/-- Directories that are made pave the path, also where one of them cannot be made. -/
theorem paved_ensureDirectories (disk : Disk) (p : Path) : disk.Paved p (leftBy (ensureDirectories p disk)) := by
  have hpaved := paved_ensureDirectoriesFrom disk p.absolute p.steps.reverse
  rwa [List.reverse_reverse] at hpaved

theorem paved_of_ensureDirectories (h : ensureDirectories p disk = .ok () made) : disk.Paved p made := by
  have hpaved := paved_ensureDirectories disk p
  rwa [h] at hpaved

/-- A path with a character that no path may hold leads nowhere. -/
theorem Disk.place_of_nul {fl : Bool} (h : ¬ ∀ step ∈ p.steps, '\x00' ∉ step) :
    disk.place fl p = .error .invalidInput := by
  rw [Disk.place, if_pos]
  simpa only [List.any_eq_true, List.contains_iff_mem, not_forall, not_not, exists_prop] using h

theorem nul_of_ensureDirectory (h : ensureDirectory p disk = .ok () made) : ∀ step ∈ p.steps, '\x00' ∉ step := by
  by_contra hnul
  have hmake : disk.makeDirectory p = .error .invalidInput := by
    rw [Disk.makeDirectory, Disk.place_of_nul hnul]
    rfl
  have hdirectory : ¬ disk.isDirectory p = true := by
    rw [Disk.isDirectory_iff]
    rintro ⟨location, hlocate, -⟩
    exact hnul (Disk.place_ok (Disk.place_of_locate hlocate)).1
  rw [ensureDirectory, change_ok, hmake] at h
  simp only [if_neg hdirectory] at h
  cases h

/-- Directories that are made can be found by their path. -/
theorem locate_of_ensureDirectories (hsound : disk.Sound) (hp : p.absolute = true ∨ p.steps ≠ [])
    (h : ensureDirectories p disk = .ok () made) :
    ∃ location, made.locate p = .ok location ∧ made.root.kind? location = some .directory := by
  obtain ⟨-, -, location, hreaches, hdirectory, -⟩ := ensureDirectories_ok hsound h
  refine ⟨location, hreaches.locate ?_ hp, hdirectory⟩
  obtain ⟨absolute, steps⟩ := p
  cases hsteps : steps.reverse with
  | nil =>
    obtain rfl := List.reverse_eq_nil_iff.mp hsteps
    exact fun _ hstep => absurd hstep List.not_mem_nil
  | cons step above =>
    obtain rfl : steps = above.reverse ++ [step] := by rw [← List.reverse_cons, ← hsteps, List.reverse_reverse]
    rw [ensureDirectories, hsteps, ensureDirectoriesFrom_cons] at h
    split at h
    · obtain ⟨_, between, -, hlast⟩ := Action.bind_ok.mp h
      exact nul_of_ensureDirectory hlast
    · exact nul_of_ensureDirectory h

end Make
end ApiHandbook.Files
