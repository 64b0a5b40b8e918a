import ApiHandbook.Proofs.Walks

/-! The two readings of a path: as it is walked, step by step, and as its names are taken apart. They differ in steps that
stay, and those change nothing on the way to a directory. -/
namespace ApiHandbook.Files

/-- Whether steps are those of another path without some of its steps that stay. -/
inductive Undotted : List (List Char) → List (List Char) → Prop where
  | nil : Undotted [] []
  | dot {steps steps'} : Undotted steps steps' → Undotted (['.'] :: steps) steps'
  | keep {step steps steps'} : Undotted steps steps' → Undotted (step :: steps) (step :: steps')

namespace Undotted
variable {steps steps' : List (List Char)}

theorem concat_dot (h : Undotted steps steps') : Undotted (steps ++ [['.']]) steps' := by
  induction h with
  | nil => exact .dot .nil
  | dot _ ih => exact .dot ih
  | keep _ ih => exact .keep ih

theorem mem_or (h : Undotted steps steps') {step : List Char} (hmem : step ∈ steps) : step = ['.'] ∨ step ∈ steps' := by
  induction h with
  | nil => exact .inr hmem
  | dot _ ih => exact (List.mem_cons.mp hmem).elim .inl ih
  | keep _ ih =>
    rcases List.mem_cons.mp hmem with rfl | hmem
    · exact .inr List.mem_cons_self
    · exact (ih hmem).imp_right (List.mem_cons_of_mem _)

theorem mem (h : Undotted steps steps') {step : List Char} (hmem : step ∈ steps') : step ∈ steps := by
  induction h with
  | nil => exact hmem
  | dot _ ih => exact List.mem_cons_of_mem _ (ih hmem)
  | keep _ ih =>
    rcases List.mem_cons.mp hmem with rfl | hmem
    · exact List.mem_cons_self
    · exact List.mem_cons_of_mem _ (ih hmem)

theorem split_last {last : List Char} (h : Undotted (steps ++ [last]) steps') (hlast : last ≠ ['.']) :
    ∃ above, steps' = above ++ [last] ∧ Undotted steps above := by
  induction steps generalizing steps' with
  | nil =>
    cases h with
    | dot _ => exact absurd rfl hlast
    | keep h =>
      cases h
      exact ⟨[], rfl, .nil⟩
  | cons step steps ih =>
    cases h with
    | dot h =>
      obtain ⟨above, rfl, habove⟩ := ih h
      exact ⟨above, rfl, .dot habove⟩
    | keep h =>
      obtain ⟨above, rfl, habove⟩ := ih h
      exact ⟨step :: above, rfl, .keep habove⟩

/-- Steps that stay change nothing on the way to a directory. -/
theorem leads {root : Node} {here location : Location} {links : Nat} (hlocation : root.kind? location = some .directory)
    (h : Undotted steps steps') (hleads : Leads root here steps' links location) :
    Leads root here steps links location := by
  induction h generalizing here links with
  | nil => exact hleads
  | dot _ ih => exact .move (hleads.directory hlocation) .stay (ih hleads)
  | keep _ ih =>
    cases hleads with
    | move hdirectory hmove hrest => exact .move hdirectory hmove (ih hrest)
    | follow hname hkind hrest =>
      obtain ⟨there, i, j, hlink, hbelow, rfl⟩ := hrest.split
      exact .follow hname hkind (hlink.append (ih hbelow))

theorem filter (pieces : List (List Char)) :
    Undotted (pieces.filter (!·.isEmpty)) (pieces.filter fun piece => !piece.isEmpty && piece != ['.']) := by
  induction pieces with
  | nil => exact .nil
  | cons piece rest ih =>
    by_cases hempty : piece.isEmpty = true
    · rw [List.filter_cons_of_neg (by simp [hempty]), List.filter_cons_of_neg (by simp [hempty])]
      exact ih
    · rw [List.filter_cons_of_pos (by simpa using hempty)]
      by_cases hdot : piece = ['.']
      · subst hdot
        exact .dot ih
      · rw [List.filter_cons_of_pos (by simpa [hdot] using hempty)]
        exact .keep ih

end Undotted

namespace Path

/-- A path as it is spelled has the steps of the path as it is walked, but for steps that stay. -/
theorem undotted_ofText (s : List Char) : Undotted (walked s).steps (ofText s).steps := by
  have hspelled : Undotted (spelled s).steps (ofText s).steps := by
    rw [spelled, ofText]
    cases s.splitOn '/' with
    | nil => exact .nil
    | cons first rest =>
      dsimp only
      by_cases hempty : first.isEmpty = true
      · obtain rfl := List.isEmpty_iff.mp hempty
        exact .filter rest
      · rw [List.filter_cons_of_pos (by simpa using hempty)]
        have hfirst : (if first = ['.'] || (!first.isEmpty && first != ['.']) then [first] else []) = [first] := by
          rw [if_pos]
          by_cases hdot : first = ['.'] <;> simp [hdot, hempty]
        rw [hfirst]
        exact .keep (.filter rest)
  rw [walked]
  split_ifs
  · exact hspelled.concat_dot
  · exact hspelled

theorem absolute_ofText (s : List Char) : (ofText s).absolute = (walked s).absolute := by
  rw [walked, ofText]
  split_ifs <;> cases s.splitOn '/' <;> rfl

variable {p : Path} {above : List (List Char)} {name : List Char}

theorem fileName?_eq_some_iff : p.fileName? = some name ↔
    ∃ above, p.steps = above ++ [name] ∧ name ≠ ['.'] ∧ name ≠ ['.', '.'] := by
  rw [fileName?, Option.filter_eq_some_iff, List.getLast?_eq_some_iff]
  simp only [Bool.and_eq_true, bne_iff_ne, exists_and_right, ne_eq]

/-- A path that is walked to a name has that name in both readings, with the same steps above it but for those that
stay. -/
theorem walked_eq {s : List Char} (hwalked : (walked s).fileName? ≠ none) (h : (ofText s).steps = above ++ [name]) :
    ∃ above', (walked s).steps = above' ++ [name] ∧ Undotted above' above := by
  obtain ⟨last, hlast⟩ := Option.ne_none_iff_exists'.mp hwalked
  obtain ⟨above', hsteps, hdot, -⟩ := fileName?_eq_some_iff.mp hlast
  have hundotted := undotted_ofText s
  rw [hsteps] at hundotted
  obtain ⟨above'', hsteps', habove⟩ := hundotted.split_last hdot
  obtain ⟨rfl, heq⟩ := List.append_inj' (h.symm.trans hsteps') rfl
  obtain rfl := List.singleton_injective heq
  exact ⟨above', hsteps, habove⟩

theorem holder_eq (h : p.steps = above ++ [name]) :
    p.holder = ⟨p.absolute, above⟩ ∨ p.holder = ⟨false, [['.']]⟩ ∧ p.absolute = false ∧ above = [] := by
  have hparent : p.parent? = some ⟨p.absolute, above⟩ := by
    rw [parent?, h, if_neg (by simp), List.dropLast_concat]
  rw [holder, hparent]
  cases habsolute : p.absolute with
  | true => exact .inl rfl
  | false =>
    cases above with
    | nil => exact .inr ⟨rfl, rfl, rfl⟩
    | cons step above => exact .inl rfl

theorem mem_holder_of_mem (hsteps : p.steps = above ++ [name]) {step : List Char} (h : step ∈ above) :
    step ∈ p.holder.steps := by
  rcases holder_eq hsteps with heq | ⟨-, -, rfl⟩
  · rwa [heq]
  · exact absurd h List.not_mem_nil

theorem mem_of_mem_holder (hsteps : p.steps = above ++ [name]) {step : List Char} (hstep : step ≠ ['.'])
    (h : step ∈ p.holder.steps) : step ∈ above := by
  rcases holder_eq hsteps with heq | ⟨heq, -, -⟩
  · rwa [heq] at h
  · rw [heq] at h
    exact absurd (List.mem_singleton.mp h) hstep

theorem holder_ne (p : Path) : p.holder.absolute = true ∨ p.holder.steps ≠ [] := by
  rw [holder]
  split
  · exact .inr (List.cons_ne_nil _ _)
  · rename_i parent hne _
    obtain ⟨absolute, steps⟩ := parent
    cases absolute with
    | true => exact .inl rfl
    | false => exact .inr fun hnil => hne (hnil ▸ rfl)
  · exact .inr (List.cons_ne_nil _ _)

theorem ofString_eq {path : String} (h : path.toList.getLast? ≠ some '/') : ofString path = spelled path.toList := by
  rw [ofString, walked, if_neg h]

theorem mem_of_mem_spelled {path : String} {step : List Char} (h : step ∈ (spelled path.toList).steps) :
    step ∈ (ofString path).steps := by
  rw [ofString, walked]
  split_ifs
  · exact List.mem_append_left _ h
  · exact h

theorem mem_of_mem_holder_ofText {path : String} {step : List Char} (hstep : step ≠ ['.'])
    (h : step ∈ (ofText path.toList).holder.steps) : step ∈ (ofString path).steps := by
  refine (undotted_ofText path.toList).mem ?_
  cases hsteps : (ofText path.toList).steps using List.reverseRecOn with
  | nil =>
    rw [holder, parent?, hsteps] at h
    exact absurd (List.mem_singleton.mp h) hstep
  | append_singleton above last =>
    exact List.mem_append_left _ (mem_of_mem_holder hsteps hstep h)

end Path
end ApiHandbook.Files
