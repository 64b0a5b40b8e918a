import ApiHandbook.Files.Disk
import ApiHandbook.Proofs.Entries

/-! What stands at the locations of a tree, and how little changes when a node is put at one of them. -/
namespace ApiHandbook.Files

/-- What a node is, apart from what stands below it. -/
inductive Kind where
  | file (content : ByteArray)
  | link (target : String)
  | directory

instance : DecidableEq Kind
  | .file a, .file b => decidable_of_iff (a.data = b.data)
    ⟨fun h => congrArg Kind.file (ByteArray.ext h), fun h => congrArg ByteArray.data (Kind.file.inj h)⟩
  | .link a, .link b => decidable_of_iff (a = b) ⟨congrArg Kind.link, Kind.link.inj⟩
  | .directory, .directory => .isTrue rfl
  | .file _, .link _ | .file _, .directory | .link _, .file _ | .link _, .directory | .directory, .file _
  | .directory, .link _ => .isFalse nofun

namespace Node

def kind : Node → Kind
  | .file content => .file content
  | .link target => .link target
  | .directory _ => .directory

/-- What stands at a location. -/
def kind? (root : Node) (location : Location) : Option Kind := (root.find? location).map kind

theorem kind_eq_directory_iff {node : Node} : node.kind = .directory ↔ ∃ entries, node = .directory entries := by
  cases node <;> simp [kind]

theorem kind?_eq_directory_iff {root : Node} {location : Location} :
    root.kind? location = some .directory ↔ ∃ entries, root.find? location = some (.directory entries) := by
  simp only [kind?, Option.map_eq_some_iff, kind_eq_directory_iff]
  exact ⟨fun ⟨_, h, entries, he⟩ => ⟨entries, he ▸ h⟩, fun ⟨entries, h⟩ => ⟨_, h, entries, rfl⟩⟩

theorem kind?_eq_none_iff {root : Node} {location : Location} :
    root.kind? location = none ↔ root.find? location = none := Option.map_eq_none_iff

theorem find?_append (root : Node) (above below : Location) :
    root.find? (above ++ below) = (root.find? above).bind fun node => node.find? below := by
  induction above generalizing root with
  | nil => cases root <;> rfl
  | cons name above ih =>
    cases root with
    | directory entries =>
      rw [List.cons_append, find?, find?, Option.bind_assoc]
      exact congrArg _ (funext ih)
    | _ => rfl

/-- An entry of a directory stands at the name below it. -/
theorem find?_concat {root : Node} {location : Location} {entries : List (String × Node)}
    (h : root.find? location = some (.directory entries)) (name : String) :
    root.find? (location ++ [name]) = entries.lookup name := by
  rw [find?_append, h, Option.bind_some, find?]
  cases entries.lookup name with
  | none => rfl
  | some node => cases node <;> rfl

theorem kind?_concat {root : Node} {location : Location} {entries : List (String × Node)}
    (h : root.find? location = some (.directory entries)) (name : String) :
    root.kind? (location ++ [name]) = (entries.lookup name).map kind := by
  rw [kind?, find?_concat h]

/-- What stands below a location stands in a directory. -/
theorem directory_of_below {root : Node} {above below : Location} (hbelow : below ≠ [])
    (h : root.kind? (above ++ below) ≠ none) : root.kind? above = some .directory := by
  obtain ⟨name, rest, rfl⟩ := List.exists_cons_of_ne_nil hbelow
  rw [Ne, kind?_eq_none_iff, find?_append] at h
  rw [kind?_eq_directory_iff]
  cases hfound : root.find? above with
  | none => exact absurd (by rw [hfound]; rfl) h
  | some node =>
    cases node with
    | directory entries => exact ⟨entries, rfl⟩
    | _ => exact absurd (by rw [hfound]; rfl) h

theorem kind?_append_eq_none {root : Node} {above : Location} (h : root.kind? above = none) (below : Location) :
    root.kind? (above ++ below) = none := by
  rw [kind?_eq_none_iff] at h ⊢
  rw [find?_append, h, Option.bind_none]

/-- Trees that agree but for what stands at and below a location agree below it too if neither has a directory there. -/
theorem kind?_eq_of_ne {root root' : Node} {location place : Location} (hroot : root.kind? place ≠ some .directory)
    (hroot' : root'.kind? place ≠ some .directory)
    (hsame : ∀ location, ¬ place <+: location → root'.kind? location = root.kind? location) (h : location ≠ place) :
    root'.kind? location = root.kind? location := by
  by_cases hbelow : place <+: location
  · obtain ⟨below, rfl⟩ := hbelow
    have hne : below ≠ [] := fun hnil => h (by rw [hnil, List.append_nil])
    rw [not_not.mp fun hthere => hroot (directory_of_below hne hthere),
      not_not.mp fun hthere => hroot' (directory_of_below hne hthere)]
  · exact hsame location hbelow

theorem kind?_cons (entries : List (String × Node)) (name : String) (rest : Location) :
    (Node.directory entries).kind? (name :: rest) = (entries.lookup name).bind fun node => node.kind? rest := by
  rw [kind?, find?, Option.map_bind]
  rfl

section Insert
variable {root : Node} {directory : Location} (hdirectory : root.kind? directory = some .directory) (name : String)
include hdirectory

/-- A directory at the end of a path of names is an entry of a directory, unless it is the root. -/
theorem entry_of_directory {first : String} {rest : Location} (h : directory = first :: rest) :
    ∃ entries child, root = .directory entries ∧ entries.lookup first = some child ∧
      child.kind? rest = some .directory := by
  subst h
  cases root with
  | directory entries =>
    rw [kind?_cons, Option.bind_eq_some_iff] at hdirectory
    obtain ⟨child, hchild, hrest⟩ := hdirectory
    exact ⟨entries, child, rfl, hchild, hrest⟩
  | _ => exact absurd hdirectory nofun

theorem find?_insert (new : Node) : (root.insert (directory ++ [name]) new).find? (directory ++ [name]) = some new := by
  induction directory generalizing root with
  | nil =>
    obtain ⟨entries, hroot⟩ := kind?_eq_directory_iff.mp hdirectory
    obtain rfl := Option.some.inj ((find?.eq_1 root).symm.trans hroot)
    rw [List.nil_append, insert, find?, lookup_put, if_pos rfl, Option.bind_some, insert, find?]
  | cons first rest ih =>
    obtain ⟨entries, child, rfl, hchild, hrest⟩ := entry_of_directory hdirectory rfl
    rw [List.cons_append, insert, hchild, Option.getD_some, find?, lookup_put, if_pos rfl, Option.bind_some]
    exact ih hrest

theorem kind?_insert_below (new : Node) (below : Location) :
    (root.insert (directory ++ [name]) new).kind? (directory ++ [name] ++ below) = new.kind? below := by
  rw [kind?, find?_append, find?_insert hdirectory, Option.bind_some, kind?]

theorem kind?_insert_self (new : Node) :
    (root.insert (directory ++ [name]) new).kind? (directory ++ [name]) = some new.kind := by
  rw [kind?, find?_insert hdirectory, Option.map_some]

/-- What stands at a location stays there when a node is put elsewhere, not above it. -/
theorem kind?_insert {location : Location} (h : ¬ directory ++ [name] <+: location) (new : Node) :
    (root.insert (directory ++ [name]) new).kind? location = root.kind? location := by
  induction directory generalizing root location with
  | nil =>
    obtain ⟨entries, hroot⟩ := kind?_eq_directory_iff.mp hdirectory
    obtain rfl := Option.some.inj ((find?.eq_1 root).symm.trans hroot)
    cases location with
    | nil => rfl
    | cons step below =>
      have hstep : step ≠ name := fun heq => h (heq ▸ ⟨below, rfl⟩)
      rw [List.nil_append, insert, kind?_cons, kind?_cons, lookup_put, if_neg hstep]
  | cons first rest ih =>
    obtain ⟨entries, child, rfl, hchild, hrest⟩ := entry_of_directory hdirectory rfl
    rw [List.cons_append, insert, hchild, Option.getD_some]
    cases location with
    | nil => rfl
    | cons step below =>
      rw [kind?_cons, kind?_cons, lookup_put]
      by_cases hstep : step = first
      · subst hstep
        rw [if_pos rfl, hchild, Option.bind_some, Option.bind_some]
        exact ih hrest fun hbelow => h (List.cons_prefix_cons.mpr ⟨rfl, hbelow⟩)
      · rw [if_neg hstep]

end Insert
end Node

/-- Whether everything that stands in one tree stands in the other one too, which has nothing more than directories. -/
def Grown (root root' : Node) : Prop :=
  ∀ location, root'.kind? location = root.kind? location ∨
    root.kind? location = none ∧ root'.kind? location = some .directory

namespace Grown
variable {root root' root'' : Node}

theorem refl (root : Node) : Grown root root := fun _ => .inl rfl

theorem trans (h : Grown root root') (h' : Grown root' root'') : Grown root root'' := by
  intro location
  rcases h location with heq | ⟨hnone, hdirectory⟩
  · rw [← heq]
    exact h' location
  · rcases h' location with heq | ⟨hnone', -⟩
    · exact .inr ⟨hnone, heq.trans hdirectory⟩
    · exact absurd (hdirectory.symm.trans hnone') nofun

theorem kept (h : Grown root root') {location : Location} {kind : Kind} (hkind : root.kind? location = some kind) :
    root'.kind? location = some kind := by
  rcases h location with heq | ⟨hnone, -⟩
  · exact heq.trans hkind
  · exact absurd (hkind.symm.trans hnone) nofun

theorem new (h : Grown root root') {location : Location} (hnone : root.kind? location = none) {kind : Kind}
    (hkind : root'.kind? location = some kind) : kind = .directory := by
  rcases h location with heq | ⟨-, hdirectory⟩
  · exact absurd (hkind.symm.trans (heq.trans hnone)) nofun
  · exact Option.some.inj (hkind.symm.trans hdirectory)

/-- A tree grows when an empty directory is put at a free name. -/
theorem insert {directory : Location} {name : String} (hdirectory : root.kind? directory = some .directory)
    (hfree : root.kind? (directory ++ [name]) = none) :
    Grown root (root.insert (directory ++ [name]) (.directory [])) := by
  intro location
  by_cases hprefix : directory ++ [name] <+: location
  · obtain ⟨below, rfl⟩ := hprefix
    have hnone := Node.kind?_append_eq_none hfree below
    rw [hnone, Node.kind?_insert_below hdirectory]
    cases below with
    | nil => exact .inr ⟨rfl, rfl⟩
    | cons step below => exact .inl rfl
  · exact .inl (Node.kind?_insert hdirectory name hprefix _)

end Grown
end ApiHandbook.Files
