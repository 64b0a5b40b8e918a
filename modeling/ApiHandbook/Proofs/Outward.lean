import ApiHandbook.Proofs.Namesakes

/-! Following mounts from a function outwards, turn by turn. There are only so many mounts, so the way ends; it is cut
exactly where it comes to some function again, and otherwise leads past every mount around. -/
namespace ApiHandbook.Project.Axum

/-- How far mounts have been followed. -/
structure Outward where
  /-- The paths met so far, from the innermost outwards. -/
  paths : List String
  /-- The function to go on with. -/
  next : Option String
  deriving DecidableEq, Repr

namespace Mounts
variable {mounts : Mounts}

/-- One turn past the next mount. There is none where no mount is left, nor once more paths were met than there are
mounts. -/
def turn (mounts : Mounts) (w : Outward) : Option Outward :=
  (w.next.bind fun function => mounts.lookup function).bind fun mount =>
    if mounts.length < w.paths.length then none else some ⟨w.paths ++ [mount.path], mount.parent⟩

/-- Turn after turn, as long as there is one. -/
inductive Follows (mounts : Mounts) : Outward → Outward → Prop where
  | ended {w} : mounts.turn w = none → Follows mounts w w
  | turned {w between last} : mounts.turn w = some between → Follows mounts between last → Follows mounts w last

/-- Whether a way is cut: there is a further mount, but more paths were met than there are mounts. -/
def Cut (mounts : Mounts) (w : Outward) : Prop :=
  (w.next.bind fun function => mounts.lookup function).isSome = true ∧ mounts.length < w.paths.length

/-- The function that is come to after a number of turns, if none is cut. -/
def visited (mounts : Mounts) (function : String) : Nat → Option String
  | 0 => some function
  | n + 1 => ((mounts.visited function n).bind fun f => mounts.lookup f).bind Mount.parent

/-- Whether no function is come to twice. -/
def Unrepeated (mounts : Mounts) (function : String) : Prop :=
  ∀ i j name, mounts.visited function i = some name → mounts.visited function j = some name → i = j

section Turn
variable {w w' : Outward}

theorem turn_eq_some (h : mounts.turn w = some w') : ∃ function mount, w.next = some function ∧
    mounts.lookup function = some mount ∧ w.paths.length ≤ mounts.length ∧
    w' = ⟨w.paths ++ [mount.path], mount.parent⟩ := by
  obtain ⟨mount, hmount, h⟩ := Option.bind_eq_some_iff.mp h
  obtain ⟨function, hnext, hlookup⟩ := Option.bind_eq_some_iff.mp hmount
  obtain ⟨hlength, heq⟩ := Option.ite_none_left_eq_some.mp h
  exact ⟨function, mount, hnext, hlookup, Nat.not_lt.mp hlength, (Option.some.inj heq).symm⟩

theorem turn_of_lookup {function : String} {mount : Mount} (hnext : w.next = some function)
    (hlookup : mounts.lookup function = some mount) (hlength : w.paths.length ≤ mounts.length) :
    mounts.turn w = some ⟨w.paths ++ [mount.path], mount.parent⟩ := by
  rw [turn, hnext, Option.bind_some, hlookup, Option.bind_some, if_neg (Nat.not_lt.mpr hlength)]

theorem turn_of_full (hlength : mounts.length < w.paths.length) : mounts.turn w = none := by
  simp only [turn, if_pos hlength, Option.bind_fun_none]

/-- Where a way ends without being cut, no mount is left. -/
theorem unmounted_of_not_cut (hturn : mounts.turn w = none) (hcut : ¬ mounts.Cut w) :
    (w.next.bind fun function => mounts.lookup function) = none := by
  by_contra hsome
  obtain ⟨mount, hmount⟩ := Option.ne_none_iff_exists'.mp hsome
  obtain ⟨function, hnext, hlookup⟩ := Option.bind_eq_some_iff.mp hmount
  have hlength : w.paths.length ≤ mounts.length :=
    Nat.not_lt.mp fun hlt => hcut ⟨Option.isSome_iff_ne_none.mpr hsome, hlt⟩
  rw [turn_of_lookup hnext hlookup hlength] at hturn
  cases hturn

end Turn

namespace Follows
variable {w last : Outward}

theorem turn_eq_none (h : mounts.Follows w last) : mounts.turn last = none := by
  induction h with
  | ended hturn => exact hturn
  | turned _ _ ih => exact ih

theorem length_le (h : mounts.Follows w last) (hw : w.paths.length ≤ mounts.length + 1) :
    last.paths.length ≤ mounts.length + 1 := by
  induction h with
  | ended _ => exact hw
  | turned hturn _ ih =>
    obtain ⟨function, mount, -, -, hlength, rfl⟩ := turn_eq_some hturn
    apply ih
    rw [List.length_append]
    exact Nat.succ_le_succ hlength

/-- What is next after some paths is what was visited in as many turns. -/
theorem next_eq_visited {function : String} (h : mounts.Follows w last)
    (hw : w.next = mounts.visited function w.paths.length) :
    last.next = mounts.visited function last.paths.length := by
  induction h with
  | ended _ => exact hw
  | turned hturn _ ih =>
    obtain ⟨f, mount, hnext, hlookup, -, rfl⟩ := turn_eq_some hturn
    apply ih
    rw [List.length_append, List.length_singleton, visited, ← hw, hnext, Option.bind_some, hlookup, Option.bind_some]

/-- A way that is not cut has met all mounts around. -/
theorem leads (h : mounts.Follows w last) (hcut : ¬ mounts.Cut last) :
    ∃ met, mounts.Leads w.next met ∧ last.paths = w.paths ++ met.map fun m => m.2.path := by
  induction h with
  | @ended w hturn =>
    have hnone := unmounted_of_not_cut hturn hcut
    refine ⟨[], ?_, (List.append_nil _).symm⟩
    cases hnext : w.next with
    | none => exact .outside
    | some function =>
      rw [hnext, Option.bind_some] at hnone
      exact .last hnone
  | turned hturn _ ih =>
    obtain ⟨function, mount, hnext, hlookup, -, rfl⟩ := turn_eq_some hturn
    obtain ⟨met, hleads, hpaths⟩ := ih hcut
    refine ⟨(function, mount) :: met, hnext ▸ .step hlookup hleads, ?_⟩
    rw [hpaths, List.append_assoc]
    rfl

end Follows

theorem chain_succ {function : String} {mount : Mount} (h : mounts.lookup function = some mount) (allowed : Nat) :
    mounts.chain (allowed + 1) function = mount.path :: mount.parent.elim [] (mounts.chain allowed) := by
  simp only [chain, h]
  cases mount.parent <;> rfl

/-- Turn after turn, the paths of a chain are met. -/
theorem follows_chain {allowed : Nat} {w : Outward} (hlength : w.paths.length + allowed = mounts.length + 1) :
    ∃ next, mounts.Follows w ⟨w.paths ++ w.next.elim [] (mounts.chain allowed), next⟩ := by
  induction allowed generalizing w with
  | zero =>
    refine ⟨w.next, ?_⟩
    have hempty : w.next.elim [] (mounts.chain 0) = [] := by cases w.next <;> rfl
    rw [hempty, List.append_nil]
    exact .ended (turn_of_full (by omega))
  | succ allowed ih =>
    cases hnext : w.next with
    | none =>
      refine ⟨none, ?_⟩
      rw [Option.elim_none, List.append_nil, ← hnext]
      exact .ended (by rw [turn, hnext]; rfl)
    | some function =>
      cases hlookup : mounts.lookup function with
      | none =>
        refine ⟨some function, ?_⟩
        rw [Option.elim_some, chain, hlookup, List.append_nil, ← hnext]
        exact .ended (by rw [turn, hnext, Option.bind_some, hlookup]; rfl)
      | some mount =>
        obtain ⟨next, hfollows⟩ := ih (w := ⟨w.paths ++ [mount.path], mount.parent⟩) (by
          rw [List.length_append, List.length_singleton]
          omega)
        refine ⟨next, .turned (turn_of_lookup hnext hlookup (by omega)) ?_⟩
        rw [Option.elim_some, chain_succ hlookup]
        rwa [List.append_assoc] at hfollows

section Visited
variable {function : String}

theorem visited_add (i k : Nat) :
    mounts.visited function (i + k) = (mounts.visited function i).bind fun f => mounts.visited f k := by
  induction k with
  | zero => exact (Option.bind_fun_some _).symm
  | succ k ih =>
    rw [← Nat.add_assoc, visited, ih]
    cases mounts.visited function i <;> rfl

theorem visited_isSome_of_le {i j : Nat} (hij : i ≤ j) (h : (mounts.visited function j).isSome = true) :
    (mounts.visited function i).isSome = true := by
  obtain ⟨k, rfl⟩ := Nat.exists_eq_add_of_le hij
  rw [visited_add] at h
  exact Option.isSome_of_isSome_bind h

theorem exists_mount_of_visited {n : Nat} (h : (mounts.visited function (n + 1)).isSome = true) :
    ∃ f mount, mounts.visited function n = some f ∧ mounts.lookup f = some mount := by
  obtain ⟨mount, hmount⟩ := Option.isSome_iff_exists.mp (Option.isSome_of_isSome_bind h)
  obtain ⟨f, hf, hlookup⟩ := Option.bind_eq_some_iff.mp hmount
  exact ⟨f, mount, hf, hlookup⟩

/-- A way that comes to a function again never ends. -/
theorem visited_isSome_of_repeated {i j : Nat} {name : String} (hij : i < j)
    (hi : mounts.visited function i = some name) (hj : mounts.visited function j = some name) (n : Nat) :
    (mounts.visited function n).isSome = true := by
  induction n using Nat.strongRecOn with
  | ind n ih =>
    by_cases hn : n ≤ j
    · exact visited_isSome_of_le hn (by rw [hj]; rfl)
    -- what follows the second visit is what followed the first
    · obtain ⟨k, rfl⟩ := Nat.exists_eq_add_of_lt (Nat.not_le.mp hn)
      have hback := ih (i + (k + 1)) (by omega)
      rw [visited_add, hi] at hback
      rwa [Nat.add_assoc, visited_add, hj]

theorem unrepeated_of_visited_eq_none {n : Nat} (h : mounts.visited function n = none) : mounts.Unrepeated function := by
  intro i j name hi hj
  by_contra hne
  have hsome : (mounts.visited function n).isSome = true := by
    rcases Nat.lt_or_gt_of_ne hne with hij | hji
    · exact visited_isSome_of_repeated hij hi hj n
    · exact visited_isSome_of_repeated hji hj hi n
  rw [h] at hsome
  cases hsome

/-- As long as no function is come to twice, each mount is met at most once. -/
theorem lt_of_unrepeated (hunrepeated : mounts.Unrepeated function) {n : Nat} {name : String} {mount : Mount}
    (hn : mounts.visited function n = some name) (hlookup : mounts.lookup name = some mount) : n < mounts.length := by
  have hmount (i : Fin (n + 1)) : ∃ f m, mounts.visited function i = some f ∧ mounts.lookup f = some m := by
    rcases Nat.lt_succ_iff_lt_or_eq.mp i.isLt with hi | hi
    · exact exists_mount_of_visited (visited_isSome_of_le hi (by rw [hn]; rfl))
    · exact ⟨name, mount, by rw [hi, hn], hlookup⟩
  choose names m hvisited hnames using hmount
  have hnodup : (List.ofFn names).Nodup := by
    rw [List.nodup_ofFn]
    intro i j hij
    exact Fin.ext (hunrepeated i j _ (hvisited i) (by rw [hvisited j, hij]))
  have hmounted : List.ofFn names ⊆ mounts.map Prod.fst := by
    intro f hf
    obtain ⟨i, rfl⟩ := List.mem_ofFn.mp hf
    obtain ⟨before, after, hsplit, -⟩ := List.lookup_eq_some_iff.mp (hnames i)
    exact List.mem_map.mpr ⟨_, hsplit ▸ List.mem_append_right _ List.mem_cons_self, rfl⟩
  have hle := hnodup.length_le_of_subset hmounted
  rwa [List.length_ofFn, List.length_map] at hle

end Visited

/-- A way is cut exactly if it comes to some function twice. -/
theorem cut_iff {function : String} {last : Outward} (h : mounts.Follows ⟨[], some function⟩ last) :
    mounts.Cut last ↔ ¬ mounts.Unrepeated function := by
  have hnext : last.next = mounts.visited function last.paths.length := h.next_eq_visited rfl
  constructor
  · intro hcut hunrepeated
    obtain ⟨mount, hmount⟩ := Option.isSome_iff_exists.mp hcut.1
    obtain ⟨f, hf, hlookup⟩ := Option.bind_eq_some_iff.mp hmount
    have hlt := lt_of_unrepeated hunrepeated (hnext ▸ hf) hlookup
    exact absurd hcut.2 (Nat.lt_asymm hlt)
  · intro hrepeated
    by_contra hcut
    refine hrepeated (unrepeated_of_visited_eq_none (n := last.paths.length + 1) ?_)
    rw [visited, ← hnext, unmounted_of_not_cut h.turn_eq_none hcut, Option.bind_none]

/-- Following mounts comes to an end after at most one more path than there are mounts, and is cut exactly where it comes
to some function again. Otherwise the path of a function is that of all mounts around, joined from the outermost
inwards. -/
theorem mountPath_follows (mounts : Mounts) (function : String) : ∃ last, mounts.Follows ⟨[], some function⟩ last ∧
    last.paths.length ≤ mounts.length + 1 ∧ mounts.mountPath function = last.paths.reverse.foldl joinRules "" ∧
    (mounts.Cut last ↔ ¬ mounts.Unrepeated function) ∧
    (mounts.Unrepeated function → ∃ met, mounts.Leads (some function) met ∧
      mounts.mountPath function = met.reverse.foldl (fun mount m => joinRules mount m.2.path) "") := by
  obtain ⟨next, hfollows⟩ := @follows_chain mounts (mounts.length + 1) ⟨[], some function⟩ (Nat.zero_add _)
  rw [List.nil_append, Option.elim_some] at hfollows
  refine ⟨_, hfollows, hfollows.length_le (Nat.zero_le _), rfl, cut_iff hfollows, fun hunrepeated => ?_⟩
  obtain ⟨met, hleads, hpaths⟩ := hfollows.leads fun hcut => (cut_iff hfollows).mp hcut hunrepeated
  refine ⟨met, hleads, ?_⟩
  rw [mountPath, show mounts.chain (mounts.length + 1) function = _ from hpaths, List.nil_append, ← List.map_reverse,
    List.foldl_map]

/-- A chain past all mounts that there are. -/
def allAround : Mounts := [("done", ⟨some "archive", "/done"⟩), ("archive", ⟨some "shop", "/old/"⟩), ("shop", ⟨none, "/v1"⟩)]

theorem mountPath_allAround : allAround.Unrepeated "done" ∧ allAround.mountPath "done" = "/v1/old/done" ∧
    ∃ met, allAround.Leads (some "done") met ∧
      allAround.mountPath "done" = met.reverse.foldl (fun mount m => joinRules mount m.2.path) "" := by
  have hunrepeated : allAround.Unrepeated "done" := unrepeated_of_visited_eq_none (n := 3) (by decide)
  obtain ⟨-, -, -, -, -, hleads⟩ := mountPath_follows allAround "done"
  exact ⟨hunrepeated, by decide, hleads hunrepeated⟩

end Mounts
end ApiHandbook.Project.Axum
