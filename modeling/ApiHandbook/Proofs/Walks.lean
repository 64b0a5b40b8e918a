import ApiHandbook.Proofs.Trees

/-! Where the steps of a path lead in a tree, as a relation that counts the links on the way, and its agreement with
walks that may follow only so many links. -/
namespace ApiHandbook.Files

/-- Whether an entry of a directory can have a name, and a walk takes it for the name of an entry. -/
def Proper (name : String) : Prop := name ≠ "." ∧ name ≠ ".." ∧ name.utf8ByteSize ≤ 255

instance (name : String) : Decidable (Proper name) := inferInstanceAs (Decidable (_ ∧ _ ∧ _))

/-- Where a step leads from a directory, unless it goes through a link. -/
inductive Moves (root : Node) (here : Location) : List Char → Location → Prop where
  | stay : Moves root here ['.'] here
  | up : Moves root here ['.', '.'] here.dropLast
  | down {name : String} {kind : Kind} : Proper name → root.kind? (here ++ [name]) = some kind →
      (∀ target, kind ≠ .link target) → Moves root here name.toList (here ++ [name])

/-- Where steps lead through all links, and through how many. -/
inductive Leads (root : Node) : Location → List (List Char) → Nat → Location → Prop where
  | done {here} : Leads root here [] 0 here
  | move {here step there rest links location} : root.kind? here = some .directory → Moves root here step there →
      Leads root there rest links location → Leads root here (step :: rest) links location
  | follow {here target rest links location} {name : String} : Proper name →
      root.kind? (here ++ [name]) = some (.link target) →
      Leads root (startOf here (Path.walked target.toList)) ((Path.walked target.toList).steps ++ rest) links location →
      Leads root here (name.toList :: rest) (links + 1) location

/-- Whether the directories and links of a tree are in another one too, wherever its files are. -/
def SameWays (root root' : Node) : Prop :=
  ∀ location kind, (∀ content, kind ≠ .file content) → root.kind? location = some kind →
    root'.kind? location = some kind

/-- A change of one place, where no directory or link was, keeps all of them. -/
theorem SameWays.of_ne {root root' : Node} {place : Location}
    (hsame : ∀ location, location ≠ place → root'.kind? location = root.kind? location)
    (hplace : ∀ kind, root.kind? place = some kind → ∃ content, kind = .file content) : SameWays root root' := by
  intro location kind hway hthere
  have hne : location ≠ place := by
    rintro rfl
    obtain ⟨content, hfile⟩ := hplace kind hthere
    exact hway content hfile
  rwa [hsame location hne]

/-- Follows a link when the given number of links may be followed. -/
def throughLink (root : Node) (followLast : Bool) :
    Nat → Location → List Char → List (List Char) → Except FileFault Place
  | 0, _, _, _ => .error .tooManyLinks
  | links + 1, here, target, rest =>
    walk root followLast links (startOf here (Path.walked target)) ((Path.walked target).steps ++ rest)

section Walk
variable {root : Node} {fl : Bool} {n : Nat} {here there : Location} {step : List Char} {rest : List (List Char)}

theorem walk_eq (root : Node) (fl : Bool) (n : Nat) : walk root fl n = walkSteps root fl (throughLink root fl n) := by
  cases n <;> rfl

@[simp] theorem walk_nil : walk root fl n here [] = .ok (.taken here) := by
  rw [walk_eq, walkSteps]

/-- How a walk takes a name in a directory. -/
theorem walk_name {name : String} (hdirectory : root.kind? here = some .directory) (hname : Proper name) :
    walk root fl n here (name.toList :: rest) = match root.kind? (here ++ [name]) with
      | none => if rest.isEmpty then .ok (.free here name) else .error .notFound
      | some (.link target) =>
        if rest.isEmpty && !fl then .ok (.taken (here ++ [name])) else throughLink root fl n here target.toList rest
      | some _ => walk root fl n (here ++ [name]) rest := by
  obtain ⟨entries, hentries⟩ := Node.kind?_eq_directory_iff.mp hdirectory
  rw [walk_eq, walkSteps, hentries, Node.kind?_concat hentries]
  simp only [String.ofList_toList, if_neg hname.1, if_neg hname.2.1, if_neg (Nat.not_lt.mpr hname.2.2)]
  cases entries.lookup name with
  | none => rfl
  | some node => cases node <;> rfl

theorem walk_move (hdirectory : root.kind? here = some .directory) (h : Moves root here step there) :
    walk root fl n here (step :: rest) = walk root fl n there rest := by
  obtain ⟨entries, hentries⟩ := Node.kind?_eq_directory_iff.mp hdirectory
  cases h with
  | stay =>
    rw [walk_eq, walkSteps, hentries]
    rfl
  | up =>
    rw [walk_eq, walkSteps, hentries]
    rfl
  | @down name kind hname hkind hlink =>
    rw [walk_name hdirectory hname, hkind]
    cases kind with
    | link target => exact absurd rfl (hlink target)
    | _ => rfl

theorem walk_link {name target : String} (hname : Proper name)
    (hkind : root.kind? (here ++ [name]) = some (.link target)) (hrest : fl = true ∨ rest ≠ []) :
    walk root fl n here (name.toList :: rest) = throughLink root fl n here target.toList rest := by
  have hdirectory := Node.directory_of_below (List.cons_ne_nil name []) (by rw [hkind]; exact nofun)
  have hfollow : (rest.isEmpty && !fl) = false := by
    rcases hrest with rfl | hrest
    · exact Bool.and_false _
    · rw [List.isEmpty_eq_false_iff.mpr hrest, Bool.false_and]
  rw [walk_name hdirectory hname, hkind]
  simp only [hfollow, Bool.false_eq_true, if_false]

theorem directory_of_walk {place : Place} (h : walk root fl n here (step :: rest) = .ok place) :
    root.kind? here = some .directory := by
  rw [walk_eq, walkSteps] at h
  rw [Node.kind?_eq_directory_iff]
  split at h
  · exact ⟨_, ‹_›⟩
  · exact absurd h nofun

/-- A step by which a walk arrives is short enough for a name. -/
theorem proper_of_walk {place : Place} {name : String} (h : walk root fl n here (name.toList :: rest) = .ok place)
    (hstay : name ≠ ".") (hup : name ≠ "..") : Proper name := by
  refine ⟨hstay, hup, Nat.not_lt.mp fun hlong => ?_⟩
  obtain ⟨entries, hentries⟩ := Node.kind?_eq_directory_iff.mp (directory_of_walk h)
  rw [walk_eq, walkSteps, hentries] at h
  simp only [String.ofList_toList, if_neg hstay, if_neg hup, if_pos hlong] at h
  cases h

/-- Where a walk that arrives goes by a name: on, unless it follows a link, or is at its last step, a name that is free or a
link that is not to be followed. -/
theorem walk_name_ok {place : Place} {name : String} (hname : Proper name)
    (h : walk root fl n here (name.toList :: rest) = .ok place) :
    (∃ kind, root.kind? (here ++ [name]) = some kind ∧ (∀ target, kind ≠ .link target) ∧
      walk root fl n (here ++ [name]) rest = .ok place) ∨
    root.kind? (here ++ [name]) = none ∧ rest = [] ∧ place = .free here name ∨
    ∃ target, root.kind? (here ++ [name]) = some (.link target) ∧
      (rest = [] ∧ fl = false ∧ place = .taken (here ++ [name]) ∨
      (fl = true ∨ rest ≠ []) ∧ throughLink root fl n here target.toList rest = .ok place) := by
  rw [walk_name (directory_of_walk h) hname] at h
  cases hkind : root.kind? (here ++ [name]) with
  | none =>
    simp only [hkind] at h
    split_ifs at h with hrest
    exact .inr (.inl ⟨rfl, List.isEmpty_iff.mp hrest, (Except.ok.inj h).symm⟩)
  | some kind =>
    cases kind with
    | link target =>
      simp only [hkind] at h
      refine .inr (.inr ⟨target, rfl, ?_⟩)
      split_ifs at h with hlast
      · rw [Bool.and_eq_true, Bool.not_eq_true'] at hlast
        exact .inl ⟨List.isEmpty_iff.mp hlast.1, hlast.2, (Except.ok.inj h).symm⟩
      · refine .inr ⟨?_, h⟩
        cases fl with
        | true => exact .inl rfl
        | false => exact .inr fun hrest => hlast (by rw [hrest]; rfl)
    | _ =>
      simp only [hkind] at h
      exact .inl ⟨_, rfl, nofun, h⟩

/-- A walk that arrives takes its first step in a directory: it moves on, follows a link, or is at its last step, a name
that is free or a link that is not to be followed. -/
theorem walk_cons_ok {place : Place} (h : walk root fl n here (step :: rest) = .ok place) :
    root.kind? here = some .directory ∧
      ((∃ there, Moves root here step there ∧ walk root fl n there rest = .ok place) ∨
      ∃ name, Proper name ∧ step = name.toList ∧
        (root.kind? (here ++ [name]) = none ∧ rest = [] ∧ place = .free here name ∨
        ∃ target, root.kind? (here ++ [name]) = some (.link target) ∧
          (rest = [] ∧ fl = false ∧ place = .taken (here ++ [name]) ∨
          (fl = true ∨ rest ≠ []) ∧ throughLink root fl n here target.toList rest = .ok place))) := by
  have hdirectory := directory_of_walk h
  refine ⟨hdirectory, ?_⟩
  obtain ⟨name, rfl⟩ : ∃ name : String, step = name.toList := ⟨String.ofList step, String.toList_ofList.symm⟩
  by_cases hstay : name = "."
  · subst hstay
    exact .inl ⟨here, .stay, (walk_move hdirectory .stay).symm.trans h⟩
  by_cases hup : name = ".."
  · subst hup
    exact .inl ⟨here.dropLast, .up, (walk_move hdirectory .up).symm.trans h⟩
  have hname := proper_of_walk h hstay hup
  rcases walk_name_ok hname h with ⟨kind, hkind, hlink, hrest⟩ | hend
  · exact .inl ⟨here ++ [name], .down hname hkind hlink, hrest⟩
  · exact .inr ⟨name, hname, rfl, hend⟩

theorem throughLink_ok {target : List Char} {place : Place} (h : throughLink root fl n here target rest = .ok place) :
    ∃ m, n = m + 1 ∧
      walk root fl m (startOf here (Path.walked target)) ((Path.walked target).steps ++ rest) = .ok place := by
  cases n with
  | zero => exact absurd h nofun
  | succ m => exact ⟨m, rfl, h⟩

end Walk

/-- The last step of a path is free rather than missing. -/
theorem walk_last_ne_notFound (root : Node) (n : Nat) (here : Location) (step : List Char) :
    walk root false n here [step] ≠ .error .notFound := by
  rw [walk_eq, walkSteps]
  split
  · simp only [walkSteps, List.isEmpty_nil, Bool.not_false, Bool.and_self, if_true]
    split_ifs
    · exact nofun
    · exact nofun
    · exact nofun
    · split <;> exact nofun
  · exact nofun

section Leads
variable {root : Node} {here location : Location} {steps : List (List Char)} {links n : Nat}

/-- A walk takes steps that lead somewhere, and goes on from there with the links that are left. -/
theorem Leads.walk_append {fl : Bool} {rest : List (List Char)} (h : Leads root here steps links location)
    (hn : links ≤ n) (hrest : fl = true ∨ rest ≠ []) :
    walk root fl n here (steps ++ rest) = walk root fl (n - links) location rest := by
  induction h generalizing n with
  | done => rfl
  | move hdirectory hmove _ ih => rw [List.cons_append, walk_move hdirectory hmove, ih hn]
  | @follow here target steps links location name hname hkind _ ih =>
    obtain ⟨m, rfl⟩ := Nat.exists_eq_add_of_lt hn
    have hrest' : fl = true ∨ steps ++ rest ≠ [] := hrest.imp_right (List.append_ne_nil_of_right_ne_nil steps)
    rw [List.cons_append, walk_link hname hkind hrest', throughLink, ← List.append_assoc, ih (Nat.le_add_right _ _)]
    congr 1
    omega

theorem Leads.walk_eq (h : Leads root here steps links location) (hn : links ≤ n) :
    walk root true n here steps = .ok (.taken location) := by
  rw [← List.append_nil steps, h.walk_append hn (.inl rfl), walk_nil]

theorem Leads.unique {links' : Nat} {location' : Location} (h : Leads root here steps links location)
    (h' : Leads root here steps links' location') : location = location' := by
  have heq := (h.walk_eq (Nat.le_max_left links links')).symm.trans (h'.walk_eq (Nat.le_max_right links links'))
  exact Place.taken.inj (Except.ok.inj heq)

/-- What steps lead to is taken, also for a walk that does not follow a link in the last step. -/
theorem Leads.taken (h : Leads root here steps links location) (hn : links ≤ n) :
    ∃ location, walk root false n here steps = .ok (.taken location) := by
  induction h generalizing n with
  | done => exact ⟨_, walk_nil⟩
  | move hdirectory hmove _ ih =>
    rw [walk_move hdirectory hmove]
    exact ih hn
  | @follow here target rest links location name hname hkind _ ih =>
    cases rest with
    | nil =>
      have hdirectory := Node.directory_of_below (List.cons_ne_nil name []) (by rw [hkind]; exact nofun)
      refine ⟨here ++ [name], ?_⟩
      rw [walk_name hdirectory hname, hkind]
      rfl
    | cons step rest =>
      obtain ⟨m, rfl⟩ := Nat.exists_eq_add_of_lt hn
      rw [walk_link hname hkind (.inr (List.cons_ne_nil _ _)), throughLink]
      exact ih (Nat.le_add_right _ _)

theorem leads_of_walk (h : walk root true n here steps = .ok (.taken location)) :
    ∃ links ≤ n, Leads root here steps links location := by
  induction n using Nat.strongRecOn generalizing here steps with
  | ind n ihn =>
    induction steps generalizing here with
    | nil =>
      rw [walk_nil] at h
      obtain rfl := Place.taken.inj (Except.ok.inj h)
      exact ⟨0, Nat.zero_le n, .done⟩
    | cons step rest ih =>
      obtain ⟨hdirectory, ⟨there, hmove, h⟩ | ⟨name, hname, rfl, ⟨-, -, hplace⟩ |
        ⟨target, hkind, ⟨-, hfl, -⟩ | ⟨-, h⟩⟩⟩⟩ := walk_cons_ok h
      · obtain ⟨links, hlinks, hleads⟩ := ih h
        exact ⟨links, hlinks, .move hdirectory hmove hleads⟩
      · exact absurd hplace nofun
      · exact absurd hfl nofun
      · obtain ⟨m, rfl, h⟩ := throughLink_ok h
        obtain ⟨links, hlinks, hleads⟩ := ihn m (Nat.lt_succ_self m) h
        exact ⟨links + 1, Nat.succ_le_succ hlinks, .follow hname hkind hleads⟩

/-- A free name is the last step of a path whose other steps lead to a directory without it. -/
theorem leads_of_free {name : String} (h : walk root false n here steps = .ok (.free location name)) :
    ∃ above links, steps = above ++ [name.toList] ∧ links ≤ n ∧ Leads root here above links location ∧ Proper name ∧
      root.kind? location = some .directory ∧ root.kind? (location ++ [name]) = none := by
  induction n using Nat.strongRecOn generalizing here steps with
  | ind n ihn =>
    induction steps generalizing here with
    | nil =>
      rw [walk_nil] at h
      exact absurd (Except.ok.inj h) nofun
    | cons step rest ih =>
      obtain ⟨hdirectory, ⟨there, hmove, h⟩ | ⟨name', hname, rfl, ⟨hfree, rfl, hplace⟩ |
        ⟨target, hkind, ⟨-, -, hplace⟩ | ⟨hrest, h⟩⟩⟩⟩ := walk_cons_ok h
      · obtain ⟨above, links, rfl, hlinks, hleads, hfree⟩ := ih h
        exact ⟨step :: above, links, rfl, hlinks, .move hdirectory hmove hleads, hfree⟩
      · obtain ⟨rfl, rfl⟩ := Place.free.inj hplace
        exact ⟨[], 0, rfl, Nat.zero_le n, .done, hname, hdirectory, hfree⟩
      · exact absurd hplace nofun
      · obtain ⟨m, rfl, h⟩ := throughLink_ok h
        obtain ⟨above, links, hsteps, hlinks, hleads, hfree⟩ := ihn m (Nat.lt_succ_self m) h
        obtain ⟨rest, last, rfl⟩ := (List.eq_nil_or_concat rest).resolve_left (hrest.resolve_left nofun)
        rw [List.concat_eq_append, ← List.append_assoc] at hsteps
        obtain ⟨rfl, hlast⟩ := List.append_inj' hsteps rfl
        refine ⟨name'.toList :: rest, links + 1, ?_, Nat.succ_le_succ hlinks, .follow hname hkind hleads, hfree⟩
        rw [List.concat_eq_append, List.cons_append, hlast]

/-- A name that a walk ends at is an entry of the directory that the steps before it lead to, unless it is followed by
another one. -/
theorem leads_of_taken {above : List (List Char)} {name : String} (hname : name ≠ "." ∧ name ≠ "..")
    (h : walk root false n here (above ++ [name.toList]) = .ok (.taken location)) :
    ∃ directory links, links ≤ n ∧ Leads root here above links directory ∧ Proper name ∧
      root.kind? directory = some .directory ∧ location = directory ++ [name] := by
  induction n using Nat.strongRecOn generalizing here above with
  | ind n ihn =>
    induction above generalizing here with
    | nil =>
      obtain ⟨hdirectory, ⟨there, hmove, h⟩ | ⟨name', hname', heq, ⟨-, -, hplace⟩ |
        ⟨target, hkind, ⟨-, -, hplace⟩ | ⟨hrest, -⟩⟩⟩⟩ := walk_cons_ok h
      · rw [walk_nil] at h
        obtain rfl := Place.taken.inj (Except.ok.inj h)
        generalize hstep : name.toList = step at hmove
        cases hmove with
        | stay => exact absurd (String.toList_inj.mp hstep) hname.1
        | up => exact absurd (String.toList_inj.mp hstep) hname.2
        | down hproper _ _ =>
          obtain rfl := String.toList_inj.mp hstep
          exact ⟨here, 0, Nat.zero_le n, .done, hproper, hdirectory, rfl⟩
      · exact absurd hplace nofun
      · obtain rfl := String.toList_inj.mp heq
        exact ⟨here, 0, Nat.zero_le n, .done, hname', hdirectory, Place.taken.inj hplace⟩
      · exact absurd rfl (hrest.resolve_left nofun)
    | cons step above ih =>
      obtain ⟨hdirectory, ⟨there, hmove, h⟩ | ⟨name', hname', rfl, ⟨-, hnil, -⟩ |
        ⟨target, hkind, ⟨hnil, -, -⟩ | ⟨-, h⟩⟩⟩⟩ := walk_cons_ok h
      · obtain ⟨directory, links, hlinks, hleads, hrest⟩ := ih h
        exact ⟨directory, links, hlinks, .move hdirectory hmove hleads, hrest⟩
      · exact absurd hnil (List.append_ne_nil_of_right_ne_nil above (List.cons_ne_nil _ []))
      · exact absurd hnil (List.append_ne_nil_of_right_ne_nil above (List.cons_ne_nil _ []))
      · obtain ⟨m, rfl, hbelow⟩ := throughLink_ok h
        rw [List.append_eq, ← List.append_assoc] at hbelow
        obtain ⟨directory, links, hlinks, hleads, hrest⟩ := ihn m (Nat.lt_succ_self m) hbelow
        exact ⟨directory, links + 1, Nat.succ_le_succ hlinks, .follow hname' hkind hleads, hrest⟩

theorem Leads.append {there : Location} {steps' : List (List Char)} {links' : Nat}
    (h : Leads root here steps links there) (h' : Leads root there steps' links' location) :
    Leads root here (steps ++ steps') (links + links') location := by
  induction h with
  | done => rwa [Nat.zero_add]
  | move hdirectory hmove _ ih => exact .move hdirectory hmove (ih h')
  | @follow here target rest links there name hname hkind _ ih =>
    rw [Nat.add_right_comm, List.cons_append]
    refine .follow hname hkind ?_
    rw [← List.append_assoc]
    exact ih h'

theorem Leads.split {steps' : List (List Char)} (h : Leads root here (steps ++ steps') links location) :
    ∃ there i j, Leads root here steps i there ∧ Leads root there steps' j location ∧ i + j = links := by
  generalize hall : steps ++ steps' = all at h
  induction h generalizing steps with
  | @done here =>
    obtain ⟨rfl, rfl⟩ := List.append_eq_nil_iff.mp hall
    exact ⟨here, 0, 0, .done, .done, rfl⟩
  | @move here step there rest links location hdirectory hmove hleads ih =>
    rcases List.append_eq_cons_iff.mp hall with ⟨rfl, rfl⟩ | ⟨steps, rfl, rfl⟩
    · exact ⟨here, 0, links, .done, .move hdirectory hmove hleads, Nat.zero_add links⟩
    · obtain ⟨middle, i, j, hi, hj, hij⟩ := ih rfl
      exact ⟨middle, i, j, .move hdirectory hmove hi, hj, hij⟩
  | @follow here target rest links location name hname hkind hleads ih =>
    rcases List.append_eq_cons_iff.mp hall with ⟨rfl, rfl⟩ | ⟨steps, rfl, rfl⟩
    · exact ⟨here, 0, links + 1, .done, .follow hname hkind hleads, Nat.zero_add _⟩
    · obtain ⟨middle, i, j, hi, hj, hij⟩ := ih (List.append_assoc _ _ _)
      exact ⟨middle, i + 1, j, .follow hname hkind hi, hj, by omega⟩

theorem Moves.grown {root' : Node} (hgrown : Grown root root') {step : List Char} (h : Moves root here step location) :
    Moves root' here step location := by
  cases h with
  | stay => exact .stay
  | up => exact .up
  | down hname hkind hlink => exact .down hname (hgrown.kept hkind) hlink

theorem Leads.grown {root' : Node} (hgrown : Grown root root') (h : Leads root here steps links location) :
    Leads root' here steps links location := by
  induction h with
  | done => exact .done
  | move hdirectory hmove _ ih => exact .move (hgrown.kept hdirectory) (hmove.grown hgrown) ih
  | follow hname hkind _ ih => exact .follow hname (hgrown.kept hkind) ih

theorem startOf_cases {P : Location → Prop} (hroot : P []) (hhere : P here) (p : Path) : P (startOf here p) := by
  rw [startOf]
  split
  · exact hroot
  · exact hhere

/-- What steps lead to exists. -/
theorem Leads.exists (hroot : root.kind? [] ≠ none) (hhere : root.kind? here ≠ none)
    (h : Leads root here steps links location) : root.kind? location ≠ none := by
  induction h with
  | done => exact hhere
  | @move here step there rest links location hdirectory hmove _ ih =>
    refine ih ?_
    cases hmove with
    | stay => exact hhere
    | up =>
      cases here using List.reverseRecOn with
      | nil => exact hhere
      | append_singleton above name =>
        rw [List.dropLast_concat]
        rw [Node.directory_of_below (List.cons_ne_nil name []) hhere]
        exact nofun
    | down _ hkind _ =>
      rw [hkind]
      exact nofun
  | follow _ _ _ ih => exact ih (startOf_cases (P := fun start => root.kind? start ≠ none) hroot hhere _)

theorem Leads.proper (hhere : ∀ name ∈ here, Proper name) (h : Leads root here steps links location) :
    ∀ name ∈ location, Proper name := by
  induction h with
  | done => exact hhere
  | move _ hmove _ ih =>
    refine ih ?_
    cases hmove with
    | stay => exact hhere
    | up => exact fun name hname => hhere name (List.dropLast_subset _ hname)
    | down hname _ _ =>
      intro name' hmem
      rcases List.mem_append.mp hmem with hmem | hmem
      · exact hhere name' hmem
      · exact List.mem_singleton.mp hmem ▸ hname
  | follow _ _ _ ih => exact ih (startOf_cases (P := fun start => ∀ name ∈ start, Proper name) nofun hhere _)

/-- A step is taken in a directory. -/
theorem Leads.directory_of_cons {step : List Char} (h : Leads root here (step :: steps) links location) :
    root.kind? here = some .directory := by
  cases h with
  | move hdirectory _ _ => exact hdirectory
  | follow _ hkind _ => exact Node.directory_of_below (List.cons_ne_nil _ []) (by rw [hkind]; exact nofun)

/-- Steps that lead to a directory start in one. -/
theorem Leads.directory (h : Leads root here steps links location) (hlocation : root.kind? location = some .directory) :
    root.kind? here = some .directory := by
  cases steps with
  | nil =>
    cases h
    exact hlocation
  | cons step rest => exact h.directory_of_cons

/-- Steps lead to a directory in every tree that has the directories and links of theirs. -/
theorem Leads.carried {root' : Node} (hways : SameWays root root') (h : Leads root here steps links location)
    (hlocation : root.kind? location = some .directory) : Leads root' here steps links location := by
  induction h with
  | done => exact .done
  | move hdirectory hmove hrest ih =>
    refine .move (hways _ .directory nofun hdirectory) ?_ (ih hlocation)
    cases hmove with
    | stay => exact .stay
    | up => exact .up
    | down hname hkind hlink =>
      have hthere := hrest.directory hlocation
      exact .down hname (hways _ .directory nofun hthere) nofun
  | follow hname hkind _ ih => exact .follow hname (hways _ (.link _) nofun hkind) (ih hlocation)

/-- The names of a directory's location lead to it. -/
theorem leads_names {names : List String} (hnames : ∀ name ∈ names, Proper name)
    (h : root.kind? (here ++ names) = some .directory) :
    Leads root here (names.map String.toList) 0 (here ++ names) := by
  induction names generalizing here with
  | nil =>
    rw [List.append_nil]
    exact .done
  | cons name names ih =>
    obtain ⟨hname, hnames⟩ := List.forall_mem_cons.mp hnames
    rw [List.append_cons] at h ⊢
    have hrest := ih hnames h
    have hthere : root.kind? (here ++ [name]) = some .directory := hrest.directory h
    have hhere : root.kind? here = some .directory :=
      Node.directory_of_below (List.cons_ne_nil name []) (by rw [hthere]; exact nofun)
    exact .move hhere (.down hname hthere nofun) hrest

end Leads

/-- A walk that does not run out of links ends as it does with more of them. -/
theorem walkSteps_congr {root : Node} {fl : Bool}
    {f g : Location → List Char → List (List Char) → Except FileFault Place}
    (hfg : ∀ here target rest, f here target rest ≠ .error .tooManyLinks → g here target rest = f here target rest)
    {here : Location} {steps : List (List Char)} (h : walkSteps root fl f here steps ≠ .error .tooManyLinks) :
    walkSteps root fl g here steps = walkSteps root fl f here steps := by
  induction steps generalizing here with
  | nil => rfl
  | cons step rest ih =>
    rw [walkSteps] at h ⊢
    conv_rhs => rw [walkSteps]
    cases hfind : root.find? here with
    | none => rfl
    | some node =>
      cases node with
      | directory entries =>
        simp only [hfind] at h ⊢
        by_cases hstay : String.ofList step = "."
        · simp only [if_pos hstay] at h ⊢
          exact ih h
        by_cases hup : String.ofList step = ".."
        · simp only [if_neg hstay, if_pos hup] at h ⊢
          exact ih h
        by_cases hlong : 255 < (String.ofList step).utf8ByteSize
        · simp only [if_neg hstay, if_neg hup, if_pos hlong]
        simp only [if_neg hstay, if_neg hup, if_neg hlong] at h ⊢
        cases hlookup : entries.lookup (String.ofList step) with
        | none => rfl
        | some node =>
          simp only [hlookup] at h ⊢
          cases node with
          | link target =>
            by_cases hlast : (rest.isEmpty && !fl) = true
            · simp only [if_pos hlast]
            · simp only [if_neg hlast] at h ⊢
              exact hfg _ _ _ h
          | _ => exact ih h
      | _ => rfl

theorem walk_mono {root : Node} {fl : Bool} {n m : Nat} (hnm : n ≤ m) {here : Location} {steps : List (List Char)}
    (h : walk root fl n here steps ≠ .error .tooManyLinks) : walk root fl m here steps = walk root fl n here steps := by
  induction n generalizing m here steps with
  | zero =>
    rw [walk_eq, walk_eq] at *
    exact walkSteps_congr (fun _ _ _ hf => absurd rfl hf) h
  | succ n ih =>
    obtain ⟨m, rfl⟩ := Nat.exists_eq_add_of_lt hnm
    rw [walk_eq] at h
    rw [walk_eq, walk_eq]
    refine walkSteps_congr (fun here target rest hf => ?_) h
    exact ih (m := n + m) (Nat.le_add_right _ _) hf

end ApiHandbook.Files
