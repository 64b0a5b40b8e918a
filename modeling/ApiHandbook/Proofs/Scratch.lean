import ApiHandbook.Proofs.Parents

/-! What stands under a name that no path and no link uses: no walk notices it. -/
namespace ApiHandbook.Files

/-- A step of a walk depends on what stands in the directory alone. -/
theorem walk_cons (root : Node) (fl : Bool) (n : Nat) (here : Location) (step : List Char) (rest : List (List Char)) :
    walk root fl n here (step :: rest) =
      if root.kind? here = some .directory then
        if step = ['.'] then walk root fl n here rest
        else if step = ['.', '.'] then walk root fl n here.dropLast rest
        else if 255 < (String.ofList step).utf8ByteSize then .error .invalidFilename
        else match root.kind? (here ++ [String.ofList step]) with
          | none => if rest.isEmpty then .ok (.free here (String.ofList step)) else .error .notFound
          | some (.link target) =>
            if rest.isEmpty && !fl then .ok (.taken (here ++ [String.ofList step]))
            else throughLink root fl n here target.toList rest
          | some _ => walk root fl n (here ++ [String.ofList step]) rest
      else .error .notADirectory := by
  by_cases hdirectory : root.kind? here = some .directory
  · obtain ⟨entries, hentries⟩ := Node.kind?_eq_directory_iff.mp hdirectory
    rw [if_pos hdirectory]
    by_cases hstay : step = ['.']
    · rw [if_pos hstay, hstay, walk_move hdirectory .stay]
    by_cases hup : step = ['.', '.']
    · rw [if_neg hstay, if_pos hup, hup, walk_move hdirectory .up]
    have hstay' : String.ofList step ≠ "." := fun heq => hstay (by rw [← String.toList_ofList (l := step), heq]; rfl)
    have hup' : String.ofList step ≠ ".." := fun heq => hup (by rw [← String.toList_ofList (l := step), heq]; rfl)
    rw [if_neg hstay, if_neg hup]
    by_cases hlong : 255 < (String.ofList step).utf8ByteSize
    · rw [if_pos hlong, walk_eq, walkSteps, hentries]
      simp only [if_neg hstay', if_neg hup', if_pos hlong]
    · have hproper : Proper (String.ofList step) := ⟨hstay', hup', Nat.not_lt.mp hlong⟩
      have hwalk : walk root fl n here ((String.ofList step).toList :: rest) = _ := walk_name hdirectory hproper
      rw [String.toList_ofList] at hwalk
      rw [if_neg hlong]
      exact hwalk
  · rw [if_neg hdirectory, walk_eq, walkSteps]
    rw [Node.kind?_eq_directory_iff] at hdirectory
    split
    · exact absurd ⟨_, ‹_›⟩ hdirectory
    · rfl

section Hidden
variable {root root' : Node} {directory : Location} {name : String}
  (hsame : ∀ location, ¬ directory ++ [name] <+: location → root'.kind? location = root.kind? location)
  (hlinks : ∀ location target, root.kind? location = some (.link target) →
    name.toList ∉ (Path.walked target.toList).steps)
include hsame hlinks

/-- No walk notices a change below a name that it does not come across. -/
theorem walk_hidden {fl : Bool} {n : Nat} {here : Location} {steps : List (List Char)}
    (hhere : ¬ directory ++ [name] <+: here) (hsteps : name.toList ∉ steps) :
    walk root' fl n here steps = walk root fl n here steps := by
  induction n using Nat.strongRecOn generalizing here steps with
  | ind n ihn =>
    induction steps generalizing here with
    | nil => rw [walk_nil, walk_nil]
    | cons step rest ih =>
      obtain ⟨hstep, hrest⟩ := not_or.mp fun h => hsteps (List.mem_cons.mpr h)
      have hthere : ¬ directory ++ [name] <+: here ++ [String.ofList step] := by
        intro hbelow
        rcases List.prefix_concat_iff.mp hbelow with heq | hbelow
        · obtain rfl := List.singleton_injective (List.append_inj' heq rfl).2
          exact hstep String.toList_ofList
        · exact hhere hbelow
      have hup : ¬ directory ++ [name] <+: here.dropLast := fun hbelow =>
        hhere (hbelow.trans (List.dropLast_prefix here))
      rw [walk_cons, walk_cons, hsame _ hhere, hsame _ hthere, ih hhere hrest, ih hup hrest]
      cases hkind : root.kind? (here ++ [String.ofList step]) with
      | none => rfl
      | some kind =>
        cases kind with
        | link target =>
          have hlink : throughLink root' fl n here target.toList rest = throughLink root fl n here target.toList rest := by
            cases n with
            | zero => rfl
            | succ m =>
              have hstart := startOf_cases (P := fun start => ¬ directory ++ [name] <+: start)
                (fun hbelow => by simp at hbelow) hhere (Path.walked target.toList)
              refine ihn m (Nat.lt_succ_self m) hstart fun hmem => ?_
              exact (List.mem_append.mp hmem).elim (hlinks _ _ hkind) hrest
          simp only [hlink]
        | _ => simp only [ih hthere hrest]

end Hidden

namespace Node

mutual

/-- Whether a tree uses a name, for an entry or on the way of a link. -/
def mentions (name : String) : Node → Bool
  | .file _ => false
  | .link target => (Path.walked target.toList).steps.contains name.toList
  | .directory entries => mentionsIn name entries

def mentionsIn (name : String) : List (String × Node) → Bool
  | [] => false
  | (key, node) :: rest => key == name || mentions name node || mentionsIn name rest

end

variable {name : String}

theorem lookup_of_mentionsIn {entries : List (String × Node)} (h : mentionsIn name entries = false) :
    entries.lookup name = none ∧ ∀ key node, entries.lookup key = some node → node.mentions name = false := by
  induction entries with
  | nil => exact ⟨rfl, nofun⟩
  | cons entry rest ih =>
    obtain ⟨first, child⟩ := entry
    rw [mentionsIn, Bool.or_eq_false_iff, Bool.or_eq_false_iff, beq_eq_false_iff_ne] at h
    obtain ⟨⟨hfirst, hchild⟩, hrest⟩ := h
    obtain ⟨hnone, hsome⟩ := ih hrest
    refine ⟨by rw [lookup_cons_eq, if_neg hfirst.symm, hnone], fun key node hlookup => ?_⟩
    rw [lookup_cons_eq] at hlookup
    split_ifs at hlookup
    · exact Option.some.inj hlookup ▸ hchild
    · exact hsome key node hlookup

theorem kind?_of_mentions {root : Node} (h : root.mentions name = false) (location : Location) :
    root.kind? (location ++ [name]) = none ∧ ∀ target, root.kind? location = some (.link target) →
      name.toList ∉ (Path.walked target.toList).steps := by
  induction location generalizing root with
  | nil =>
    cases root with
    | file content => exact ⟨rfl, nofun⟩
    | link target =>
      rw [mentions, List.contains_eq_mem, decide_eq_false_iff_not] at h
      exact ⟨rfl, fun _ htarget => Kind.link.inj (Option.some.inj htarget) ▸ h⟩
    | directory entries =>
      refine ⟨?_, nofun⟩
      rw [List.nil_append, kind?_cons, (lookup_of_mentionsIn h).1]
      rfl
  | cons first rest ih =>
    cases root with
    | directory entries =>
      rw [List.cons_append, kind?_cons, kind?_cons]
      cases hchild : entries.lookup first with
      | none => exact ⟨rfl, nofun⟩
      | some child => exact ih ((lookup_of_mentionsIn h).2 first child hchild)
    | _ => exact ⟨rfl, nofun⟩

end Node

namespace Disk

/-- Whether a name is free for something temporary: an entry can have it, no entry has it, and neither a link nor a path
uses it. -/
structure Unused (disk : Disk) (name : String) (p : Path) : Prop where
  proper : Proper name
  nul : '\x00' ∉ name.toList
  entries : ∀ location, disk.root.kind? (location ++ [name]) = none
  links : ∀ location target, disk.root.kind? location = some (.link target) →
    name.toList ∉ (Path.walked target.toList).steps
  path : name.toList ∉ p.steps

section Unused
variable {disk disk' : Disk} {directory location : Location} {name : String} {p p' : Path}

theorem Unused.of_mentions (hproper : Proper name) (hnul : '\x00' ∉ name.toList) (htree : disk.root.mentions name = false)
    (hpath : name.toList ∉ p.steps) : disk.Unused name p where
  proper := hproper
  nul := hnul
  entries location := (Node.kind?_of_mentions htree location).1
  links location := (Node.kind?_of_mentions htree location).2
  path := hpath

theorem Unused.not_below (hunused : disk.Unused name p) (hlocation : disk.root.kind? location ≠ none) :
    ¬ directory ++ [name] <+: location := by
  rintro ⟨below, rfl⟩
  exact hlocation (Node.kind?_append_eq_none (hunused.entries directory) below)

theorem Unused.not_mem (hunused : disk.Unused name p) (hlocation : disk.root.kind? location ≠ none) :
    name ∉ location := by
  intro hmem
  obtain ⟨above, below, rfl⟩ := List.append_of_mem hmem
  exact hunused.not_below hlocation ⟨below, List.append_assoc above [name] below⟩

/-- An unused name stays unused when directories are made on the way of a path without it. -/
theorem Unused.paved (hunused : disk.Unused name p) (hpaved : disk.Paved p' disk') (hpath : name.toList ∉ p'.steps) :
    disk'.Unused name p := by
  refine ⟨hunused.proper, hunused.nul, fun location => ?_, fun location target hlink => ?_, hunused.path⟩
  · rcases hpaved.kept (location ++ [name]) with heq | ⟨-, -, above, name', directory, hsteps, -, heq⟩
    · exact heq.trans (hunused.entries location)
    · obtain rfl := List.singleton_injective (List.append_inj' heq rfl).2
      exact absurd (hsteps.subset (List.mem_append_right above List.mem_cons_self)) hpath
  · rcases hpaved.kept location with heq | ⟨-, hdirectory, -⟩
    · exact hunused.links location target (heq.symm.trans hlink)
    · cases hdirectory.symm.trans hlink

variable (hunused : disk.Unused name p) (hsound : disk.Sound) (hhere : disk'.here = disk.here)
  (hsame : ∀ location, ¬ directory ++ [name] <+: location → disk'.root.kind? location = disk.root.kind? location)
include hunused hsound hhere hsame

theorem place_hidden (fl : Bool) : disk'.place fl p = disk.place fl p := by
  have hroot : disk.root.kind? [] ≠ none := by rw [hsound.root]; exact nofun
  have hstart := startOf_cases (P := fun start => ¬ directory ++ [name] <+: start) (hunused.not_below hroot)
    (hunused.not_below (by rw [hsound.here]; exact nofun)) p
  rw [Disk.place, Disk.place, hhere, walk_hidden hsame hunused.links hstart hunused.path]

theorem sound_hidden : disk'.Sound := by
  refine ⟨?_, hhere ▸ hsound.names⟩
  rw [hhere, hsame _ (hunused.not_below (by rw [hsound.here]; exact nofun)), hsound.here]

theorem exists?_hidden : disk'.exists? p = disk.exists? p := by
  have hlocate : disk'.locate p = disk.locate p := by
    rw [Disk.locate, Disk.locate, place_hidden hunused hsound hhere hsame true]
  cases h : disk.locate p with
  | error fault => rw [exists?, exists?, Disk.find?, Disk.find?, hlocate, h]
  | ok location =>
    rw [exists?_of_locate hsound h, exists?_of_locate (sound_hidden hunused hsound hhere hsame) (hlocate.trans h)]

end Unused
end Disk

end ApiHandbook.Files
