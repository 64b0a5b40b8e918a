import ApiHandbook.Command.Run
import ApiHandbook.Files.Difference
import ApiHandbook.Proofs.Exports
import ApiHandbook.Proofs.Writing

/-! Changes turn a tree into another one: what they leave at each location is what the other tree has there, and between
a tree and itself there are none. So writing back what a command has changed leaves what the command has left. -/
namespace ApiHandbook.Files

/-- Whether no directory of a tree has two entries of one name. -/
inductive Node.Distinct : Node → Prop where
  | file (content : ByteArray) : Distinct (.file content)
  | link (target : String) : Distinct (.link target)
  | directory {entries : List (String × Node)} : (entries.map Prod.fst).Nodup → (∀ entry ∈ entries, Distinct entry.2) →
      Distinct (.directory entries)

/-- Whether two trees have the same at every location. -/
def Alike (a b : Node) : Prop := ∀ location, a.kind? location = b.kind? location

theorem Alike.refl (a : Node) : Alike a a := fun _ => rfl

namespace Node

theorem after_append (root : Node) (first second : List Change) :
    root.after (first ++ second) = (root.after first).after second := List.foldl_append

theorem after_whole (root node : Node) : root.after [⟨[], node⟩] = node := by
  rw [after, List.foldl_cons, List.foldl_nil, insert]

variable {entries : List (String × Node)} {name : String}

/-- Changes in an entry change the directory in this entry. -/
theorem after_under {node : Node} (h : entries.lookup name = some node) (cs : List Change) :
    (directory entries).after (cs.map (Change.under name)) = directory (put name (node.after cs) entries) := by
  induction cs generalizing entries node with
  | nil => exact congrArg directory (put_of_lookup h).symm
  | cons c cs ih =>
    have hstep : (directory entries).insert (name :: c.location) c.node =
        directory (put name (node.insert c.location c.node) entries) := by
      rw [insert, h, Option.getD_some]
    have hlookup : (put name (node.insert c.location c.node) entries).lookup name =
        some (node.insert c.location c.node) := by rw [lookup_put, if_pos rfl]
    calc (directory entries).after ((c :: cs).map (Change.under name))
      _ = ((directory entries).insert (name :: c.location) c.node).after (cs.map (Change.under name)) := rfl
      _ = directory (put name ((node.insert c.location c.node).after cs)
            (put name (node.insert c.location c.node) entries)) := by rw [hstep, ih hlookup]
      _ = directory (put name (node.after (c :: cs)) entries) := by rw [put_put]; rfl

theorem after_new (node : Node) :
    (directory entries).after [Change.under name ⟨[], node⟩] = directory (put name node entries) := by
  rw [after, List.foldl_cons, List.foldl_nil, Change.under, insert, insert]

end Node

theorem changes_none (new : Node) : changes none new = [⟨[], new⟩] := by
  cases new <;> rw [changes] <;> nofun

/-- Changes in the entries of a directory leave there what the entries are to be, and all others as they were. -/
theorem exists_after_changesIn {old entries current : List (String × Node)}
    (hentries : ∀ entry ∈ entries, ∀ before : Node, Alike (before.after (changes (some before) entry.2)) entry.2)
    (hkeys : (entries.map Prod.fst).Nodup) (hcurrent : ∀ name ∈ entries.map Prod.fst, current.lookup name = old.lookup name) :
    ∃ final, (Node.directory current).after (changesIn old entries) = .directory final ∧
      ∀ name rest, (Node.directory final).kind? (name :: rest) = if name ∈ entries.map Prod.fst
        then (Node.directory entries).kind? (name :: rest) else (Node.directory current).kind? (name :: rest) := by
  induction entries generalizing current with
  | nil => exact ⟨current, rfl, fun _ _ => rfl⟩
  | cons entry entries ih =>
    obtain ⟨name, node⟩ := entry
    obtain ⟨hname, hkeys⟩ := List.nodup_cons.mp hkeys
    obtain ⟨hnode, hentries⟩ := List.forall_mem_cons.mp hentries
    obtain ⟨hlookup, hcurrent⟩ := List.forall_mem_cons.mp hcurrent
    obtain ⟨changed, hsame, hchanged⟩ : ∃ changed, Alike changed node ∧
        (Node.directory current).after ((changes (old.lookup name) node).map (Change.under name)) =
          .directory (put name changed current) := by
      cases hold : old.lookup name with
      | some before => exact ⟨_, hnode before, Node.after_under (hlookup.trans hold) _⟩
      | none => exact ⟨node, .refl node, by rw [changes_none, List.map_singleton, Node.after_new]⟩
    have hput : ∀ other ∈ entries.map Prod.fst, (put name changed current).lookup other = old.lookup other := by
      intro other hother
      have hne : other ≠ name := fun heq => hname (heq ▸ hother)
      rw [lookup_put, if_neg hne, hcurrent other hother]
    obtain ⟨final, hfinal, hothers⟩ := ih hentries hkeys hput
    refine ⟨final, by rw [changesIn, Node.after_append, hchanged, hfinal], fun other rest => ?_⟩
    rw [hothers, Node.kind?_cons, Node.kind?_cons, Node.kind?_cons, Node.kind?_cons, lookup_put, lookup_cons_eq,
      List.map_cons]
    by_cases heq : other = name
    · subst heq
      rw [if_neg hname, if_pos rfl, if_pos List.mem_cons_self, if_pos rfl]
      exact hsame rest
    · simp only [List.mem_cons, heq, false_or, if_false]

theorem alike_whole (old new : Node) : Alike (old.after [⟨[], new⟩]) new := Node.after_whole old new ▸ .refl new

/-- What is as it is to be need not be put. -/
theorem alike_unless {old new : Node} {p : Prop} [Decidable p] (h : p → old = new) :
    Alike (old.after (if p then [] else [⟨[], new⟩])) new := by
  split
  · rename_i hp
    exact h hp ▸ .refl old
  · exact alike_whole old new

/-- The changes from one tree to another one leave the same at every location. -/
theorem alike_after_changes {old new : Node} (hnew : new.Distinct) : Alike (old.after (changes (some old) new)) new := by
  induction hnew generalizing old with
  | file content =>
    cases old with
    | file before =>
      rw [changes]
      exact alike_unless fun heq => congrArg Node.file (ByteArray.ext heq)
    | _ => exact alike_whole _ _
  | link target =>
    cases old with
    | link before =>
      rw [changes]
      exact alike_unless (congrArg Node.link)
    | _ => exact alike_whole _ _
  | @directory entries hkeys _ ih =>
    cases old with
    | directory before =>
      rw [changes]
      split
      · rename_i hstay
        obtain ⟨final, hfinal, hfound⟩ :=
          exists_after_changesIn (fun entry hentry _ => ih entry hentry) hkeys fun _ _ => Eq.refl (before.lookup _)
        rw [hfinal]
        intro location
        cases location with
        | nil => rfl
        | cons name rest =>
          rw [hfound]
          split
          · rfl
          · rename_i hname
            have hnone : entries.lookup name = none := by
              rw [← Option.not_isSome_iff_eq_none, List.lookup_isSome_iff]
              rintro ⟨entry, hentry, hkey⟩
              exact hname (eq_of_beq hkey ▸ List.mem_map_of_mem hentry)
            -- All entries of the old directory stay, so that it has no other ones than the new directory.
            have hbefore : before.lookup name = none := by
              rw [← Option.not_isSome_iff_eq_none, List.lookup_isSome_iff]
              rintro ⟨entry, hentry, hkey⟩
              have hkept := List.all_eq_true.mp hstay entry hentry
              rw [← eq_of_beq hkey, hnone] at hkept
              cases hkept
            rw [Node.kind?_cons, Node.kind?_cons, hnone, hbefore]
      · exact alike_whole _ _
    | _ => exact alike_whole _ _

/-- Between a tree and itself nothing has to be changed. -/
theorem changes_self {node : Node} (h : node.Distinct) : changes (some node) node = [] := by
  induction h with
  | file content => rw [changes, if_pos rfl]
  | link target => rw [changes, if_pos rfl]
  | @directory entries hkeys _ ih =>
    have hstay : (entries.all fun entry => (entries.lookup entry.1).isSome) = true :=
      List.all_eq_true.mpr fun entry hentry => by rw [(lookup_eq_some_iff_mem hkeys).mpr hentry, Option.isSome_some]
    have hnone (rest : List (String × Node)) (hrest : ∀ entry ∈ rest, entry ∈ entries) : changesIn entries rest = [] := by
      induction rest with
      | nil => rfl
      | cons entry rest ihrest =>
        obtain ⟨hentry, hrest⟩ := List.forall_mem_cons.mp hrest
        rw [changesIn, (lookup_eq_some_iff_mem hkeys).mpr hentry, ih entry hentry, ihrest hrest]
        rfl
    rw [changes, if_pos hstay, hnone entries fun _ => id]

/-! ### Names stay distinct -/

theorem Node.Distinct.empty : (Node.directory []).Distinct := .directory List.nodup_nil nofun

theorem Node.Distinct.insert {root new : Node} (h : root.Distinct) (hnew : new.Distinct) (location : Location) :
    (root.insert location new).Distinct := by
  induction location generalizing root with
  | nil => rwa [Node.insert]
  | cons name rest ih =>
    cases h with
    | file content => exact .file content
    | link target => exact .link target
    | @directory entries hkeys hentries =>
      rw [Node.insert]
      have hold : ((entries.lookup name).getD (.directory [])).Distinct := by
        cases hnode : entries.lookup name with
        | none => exact .empty
        | some node => exact hentries _ ((lookup_eq_some_iff_mem hkeys).mp hnode)
      refine .directory ?_ fun entry hentry => ?_
      · exact nodup_keys_foldl_put [(name, _)] entries hkeys
      · rcases mem_put hentry with rfl | hentry
        · exact ih hold
        · exact hentries entry hentry

theorem Node.Distinct.insertMissing {root new : Node} (h : root.Distinct) (hnew : new.Distinct) (location : Location) :
    (root.insertMissing location new).Distinct := by
  rw [Node.insertMissing]
  split
  · exact h
  · exact h.insert hnew location

namespace Disk
variable {disk disk' : Disk}

theorem distinct_insert (h : disk.root.Distinct) {new : Node} (hnew : new.Distinct) (location : Location) :
    (disk.insert location new).root.Distinct := h.insert hnew location

theorem distinct_makeDirectory (h : disk.root.Distinct) {p : Path} (hmade : disk.makeDirectory p = .ok disk') :
    disk'.root.Distinct := by
  obtain ⟨_, _, _, _, _, _, _, _, rfl⟩ := makeDirectory_ok hmade
  exact distinct_insert h .empty _

theorem distinct_placeFile (h : disk.root.Distinct) {path : String} {content : ByteArray} {force : Bool}
    (hplaced : disk.placeFile path content force = .ok disk') : disk'.root.Distinct := by
  rw [placeFile_eq] at hplaced
  cases hspot : disk.fileSpot path force with
  | error fault => rw [hspot] at hplaced; cases hplaced
  | ok spot =>
    rw [hspot] at hplaced
    exact Except.ok.inj hplaced ▸ distinct_insert h (.file content) spot

theorem distinct_placeDirectory (h : disk.root.Distinct) {target : Location} {entries : List (String × Node)}
    (hentries : (Node.directory entries).Distinct) (hplaced : disk.placeDirectory target entries = .ok disk') :
    disk'.root.Distinct := by
  obtain ⟨rfl, -⟩ := placeDirectory_ok hplaced
  exact distinct_insert h hentries target

end Disk

/-! ### Work that keeps them distinct -/

/-- The disk that work leaves, whether it succeeds or not. -/
def diskLeft {ε α : Type} : EStateM.Result ε Disk α → Disk
  | .ok _ disk | .error _ disk => disk

/-- Work that gives no directory two entries of one name. -/
def Tidy {ε α : Type} (x : EStateM ε Disk α) : Prop := ∀ disk, disk.root.Distinct → (diskLeft (x disk)).root.Distinct

namespace Tidy
variable {α β : Type}

theorem pure (a : α) : Tidy (Pure.pure a : Action α) := fun _ h => h

theorem throw (failure : Failure) : Tidy (MonadExcept.throw failure : Action α) := fun _ h => h

theorem bind {x : Action α} {f : α → Action β} (hx : Tidy x) (hf : ∀ a, Tidy (f a)) : Tidy (x >>= f) := by
  intro disk hdisk
  have hleft := hx disk hdisk
  rw [Action.run_bind]
  cases hresult : x disk with
  | ok a between => exact hf a between (by rwa [hresult] at hleft)
  | error failure between => rwa [hresult] at hleft

/-- What is refused is refused before anything is done. -/
theorem refuse {p : Prop} [Decidable p] {x : Unit → Action α} (hx : Tidy (x ())) (failure : Failure) :
    Tidy (if p then MonadExcept.throw failure >>= x else x ()) := by
  split
  · exact fun _ h => h
  · exact hx

/-- Work that looks at the disk first is tidy if it is so on each disk that it looks at. -/
theorem get_bind {f : Disk → Action α} (hf : ∀ disk, Tidy (f disk)) : Tidy (MonadState.get >>= f) :=
  fun disk h => hf disk disk h

theorem change {f : Disk → Except FileFault Disk}
    (hf : ∀ disk disk', disk.root.Distinct → f disk = .ok disk' → disk'.root.Distinct) : Tidy (Files.change f) := by
  intro disk hdisk
  rw [Files.change]
  cases hresult : f disk with
  | ok made => exact hf disk made hdisk hresult
  | error fault => exact hdisk

theorem ensureDirectory (p : Path) : Tidy (Files.ensureDirectory p) := by
  refine change fun disk disk' hdisk h => ?_
  cases hmade : disk.makeDirectory p with
  | ok made =>
    simp only [hmade] at h
    exact Except.ok.inj h ▸ Disk.distinct_makeDirectory hdisk hmade
  | error fault =>
    simp only [hmade] at h
    split_ifs at h
    exact Except.ok.inj h ▸ hdisk

theorem ensureDirectoriesFrom (absolute : Bool) (steps : List (List Char)) :
    Tidy (Files.ensureDirectoriesFrom absolute steps) := by
  induction steps with
  | nil => exact pure ()
  | cons step above ih =>
    intro disk hdisk
    rw [ensureDirectoriesFrom_cons]
    split
    · exact bind ih (fun _ => ensureDirectory _) disk hdisk
    · exact ensureDirectory _ disk hdisk

theorem ensureDirectories (p : Path) : Tidy (Files.ensureDirectories p) := ensureDirectoriesFrom p.absolute p.steps.reverse

theorem writeNewFile (path content : String) (force : Bool) : Tidy (Files.writeNewFile path content force) := by
  refine get_bind fun _ => refuse (bind (ensureDirectories _) fun _ disk hdisk => ?_) _
  rw [Action.run_bind, Action.run_get]
  cases hplaced : disk.placeFile path content.toUTF8 force with
  | ok placed =>
    simp only [hplaced]
    exact Disk.distinct_placeFile hdisk hplaced
  | error fault =>
    simp only [hplaced]
    cases fault <;> exact hdisk

theorem exportDocument (path document : String) (force : Bool) : Tidy (Files.exportDocument path document force) :=
  bind (writeNewFile path document force) fun _ => pure path

theorem destination (path : String) : Tidy (Files.destination path) := by
  refine get_bind fun _ => ?_
  split
  · exact pure _
  · dsimp only
    split
    · exact throw _
    · refine bind (ensureDirectories _) fun _ => get_bind fun _ => ?_
      split
      · exact pure _
      · exact throw _

theorem exportPage (path page : String) (force : Bool) : Tidy (Files.exportPage path page force) := by
  refine get_bind fun _ => refuse (bind (destination path) fun target => get_bind fun _ => refuse ?_ _) _
  refine bind (change fun disk disk' hdisk h => Disk.distinct_placeDirectory hdisk ?_ h) fun _ => pure _
  exact .directory (List.nodup_singleton pageName) (List.forall_mem_singleton.mpr (.file _))

theorem exportText (line : Command.Line) (text : String) : Tidy (line.exportText text) := by
  rw [Command.Line.exportText]
  split
  · exact exportPage line.output text line.force
  · exact exportDocument line.output text line.force

/-- A command gives no directory two entries of one name. -/
theorem run (line : Command.Line) : Tidy line.run := by
  intro disk hdisk
  rw [Command.Line.run]
  split
  · exact hdisk
  · rename_i text _
    have hleft := exportText line text disk hdisk
    cases hresult : line.exportText text disk with
    | ok path disk' => rwa [hresult] at hleft
    | error cause disk' => rwa [hresult] at hleft

end Tidy

/-- Putting the differences in the tree that a command ran on leaves what the command left, whether it succeeded or not. -/
theorem alike_after_run (line : Command.Line) (disk : Disk) (h : disk.root.Distinct) :
    Alike (disk.root.after (changes (some disk.root) (diskLeft (line.run disk)).root)) (diskLeft (line.run disk)).root :=
  alike_after_changes (Tidy.run line disk h)

end ApiHandbook.Files
