import ApiHandbook.Proofs.Entries
import ApiHandbook.Proofs.Routers
import ApiHandbook.Proofs.Rules
import Mathlib.Logic.Relation

/-! Where the router that a function builds is mounted: what the calls of `nest` in a project say, and that following
them from function to function finds just that. -/
namespace ApiHandbook.Project.Axum
open Code

/-- What is nested in a router. -/
inductive Nested where
  | inline (router : Router String)
  | call (builder : String)
  deriving DecidableEq, Repr

/-- Everything nested in a router, each with the rules of the nestings that lead to it, from the outermost inwards. -/
def Router.nests (around : List String) : Router String → List (List String × Nested)
  | .new => []
  | .route base _ _ => base.nests around
  | .nest base rule inner =>
    base.nests around ++ (around ++ [rule], .inline inner) :: inner.nests (around ++ [rule])
  | .mount base rule builder => base.nests around ++ [(around ++ [rule], .call builder)]

/-- A call by which the router of a function is nested in another one; functions go by names of some type. -/
structure Call (ν : Type) where
  /-- The function around. -/
  caller : Option ν
  rules : List String
  builder : ν
  deriving DecidableEq, Repr

section Calls
variable {ν : Type}

/-- The functions nested in a router, each with the rules of the nestings that lead to it, from the outermost inwards. -/
def Router.mounted (around : List String) : Router ν → List (List String × ν)
  | .new => []
  | .route base _ _ => base.mounted around
  | .nest base rule inner => base.mounted around ++ inner.mounted (around ++ [rule])
  | .mount base rule builder => base.mounted around ++ [(around ++ [rule], builder)]

/-- The calls that nest functions in a router. -/
def Router.calls (caller : Option ν) (router : Router ν) : List (Call ν) :=
  (router.mounted []).map fun (rules, builder) => ⟨caller, rules, builder⟩

end Calls

def calls (built : List Built) : List (Call String) := built.flatMap fun b => b.router.calls b.function

/-- The path under which the routers that a function builds are mounted. -/
inductive MountPath (calls : List (Call String)) : Option String → String → Prop where
  | outside : MountPath calls none ""
  | unmounted {function} : (∀ c ∈ calls, c.builder ≠ function) → MountPath calls (some function) ""
  | mounted {c function mount} : c ∈ calls → c.builder = function → MountPath calls c.caller mount →
      MountPath calls (some function) (c.rules.foldl joinRules mount)

/-- Whether the router of the second function is nested in one that the first function builds. -/
def Encloses {ν : Type} (calls : List (Call ν)) (outer inner : ν) : Prop :=
  ∃ c ∈ calls, c.caller = some outer ∧ c.builder = inner

/-- What nestings have to fulfil for their meaning to be clear. -/
structure WellNested (built : List Built) : Prop where
  solid : ∀ b ∈ built, ∀ n ∈ b.router.nests [], ∀ rule ∈ n.1, Solid rule
  once : ((calls built).map Call.builder).Nodup
  acyclic : ∀ function, ¬ Relation.TransGen (Encloses (calls built)) function function

/-- Steps that only lead upwards in some ranking have no cycles. -/
theorem not_transGen_of_rank {α : Type} {r : α → α → Prop} (rank : α → Nat) (hstep : ∀ a b, r a b → rank a < rank b)
    (a : α) : ¬ Relation.TransGen r a a := by
  have hpath {b c : α} (h : Relation.TransGen r b c) : rank b < rank c := by
    induction h with
    | single h => exact hstep _ _ h
    | tail _ h ih => exact ih.trans (hstep _ _ h)
  exact fun hcycle => Nat.lt_irrefl _ (hpath hcycle)

theorem acyclic_of_rank {ν : Type} {calls : List (Call ν)} (rank : ν → Nat)
    (h : ∀ c ∈ calls, c.caller.all fun caller => decide (rank caller < rank c.builder)) (function : ν) :
    ¬ Relation.TransGen (Encloses calls) function function := by
  refine not_transGen_of_rank rank ?_ function
  rintro outer _ ⟨c, hc, hcaller, rfl⟩
  have hrank := h c hc
  rw [hcaller] at hrank
  exact of_decide_eq_true hrank

/-- Whether an empty router is nested somewhere as it stands. -/
def NestsNew (built : List Built) : Prop := ∃ b ∈ built, ∃ n ∈ b.router.nests [], n.2 = .inline .new

/-- A function has at most one mount path, when it is nested at most once. -/
theorem MountPath.unique {calls : List (Call String)} (once : (calls.map Call.builder).Nodup) {function : Option String}
    {mount : String} (h : MountPath calls function mount) {other : String} (h' : MountPath calls function other) :
    mount = other := by
  induction h generalizing other with
  | outside =>
    cases h'
    rfl
  | unmounted hnone =>
    cases h' with
    | unmounted _ => rfl
    | mounted hc hb _ => exact absurd hb (hnone _ hc)
  | @mounted c f mount hc hb _ ih =>
    cases h' with
    | unmounted hnone => exact absurd hb (hnone _ hc)
    | @mounted c' _ mount' hc' hb' hm' =>
      obtain rfl := List.inj_on_of_nodup_map once hc hc' (hb.trans hb'.symm)
      rw [ih hm']

theorem MountPath.of_mem_iff {calls calls' : List (Call String)} (hmem : ∀ c, c ∈ calls ↔ c ∈ calls')
    {function : Option String} {mount : String} (h : MountPath calls function mount) : MountPath calls' function mount := by
  induction h with
  | outside => exact .outside
  | unmounted hnone => exact .unmounted fun c hc => hnone c ((hmem c).mpr hc)
  | mounted hc hb _ ih => exact .mounted ((hmem _).mp hc) hb ih

/-- The name that is nested, as it is taken from the nesting's argument. -/
def Nested.name? : Nested → Option String
  | .call builder => some builder
  | .inline .new => some "new"
  | .inline _ => none

/-- The mounts that are noted for what a function nests. -/
def mountsOf (function : Option String) : List String × Nested → List (String × Mount)
  | (rules, nested) => (nested.name?.map fun name => (name, ⟨function, rules.foldl joinRules ""⟩)).toList

theorem last?_of_isNew {p : Path} (h : isNew p = true) : p.last? = some "new" := by
  obtain ⟨rest, hrest⟩ := List.isPrefixOf_iff_prefix.mp h
  rw [Path.last?, ← List.head?_reverse, ← hrest]
  rfl

theorem calledFunction?_of_builds {e : Expr} {router : Router String} (h : Builds Path.last? e router) :
    calledFunction? e = (Nested.inline router).name? := by
  cases h with
  | new hp => exact last?_of_isNew hp
  | _ => rfl

theorem calledFunction?_of_builder? {e : Expr} {builder : String} (h : builder? Path.last? e = some builder) :
    calledFunction? e = some builder := by
  unfold builder? at h
  split at h
  · split at h
    · cases h
    · exact h
  · cases h

theorem indifferent_nestings : Indifferent nestings := by
  intro k receiver method arguments _ hnest
  simp only [nestings, nesting?_eq_none hnest]

theorem expr_nestings {e : Expr} {router : Router String} (h : Builds Path.last? e router) (function : Option String)
    (around : List String) : nestings.expr ⟨function, around.foldl joinRules ""⟩ e =
      (router.nests around).flatMap (mountsOf function) := by
  induction h generalizing around with
  | new _ => rfl
  | @route base router path argument bindings _ hb ih =>
    have hcall : nestings.call ⟨function, around.foldl joinRules ""⟩ base "route" [.literal (.text path), argument] =
        { inside := ⟨function, around.foldl joinRules ""⟩ } := rfl
    rw [Survey.expr, hcall, ih, Router.nests]
    simp [Survey.exprs, Survey.expr, expr_bindings indifferent_nestings hb]
  | @nest base router rule argument inner _ hi ihb ihi =>
    have hcall : nestings.call ⟨function, around.foldl joinRules ""⟩ base "nest" [.literal (.text rule), argument] =
        { found := ((calledFunction? argument).map fun builder =>
            (builder, ⟨function, (around ++ [rule]).foldl joinRules ""⟩)).toList
          inside := ⟨function, (around ++ [rule]).foldl joinRules ""⟩
          only := some 1 } := by
      rw [List.foldl_concat]
      rfl
    rw [Survey.expr, hcall, ihb, Router.nests, List.flatMap_append, List.flatMap_cons, ← ihi, List.append_assoc,
      calledFunction?_of_builds hi]
    rfl
  | @mount base router rule argument builder _ hb ih =>
    have hcall : nestings.call ⟨function, around.foldl joinRules ""⟩ base "nest" [.literal (.text rule), argument] =
        { found := [(builder, ⟨function, (around ++ [rule]).foldl joinRules ""⟩)]
          inside := ⟨function, (around ++ [rule]).foldl joinRules ""⟩
          only := some 1 } := by
      rw [List.foldl_concat]
      simp [nestings, nesting?, textOf?, calledFunction?_of_builder? hb]
    rw [Survey.expr, hcall, ih, Router.nests, List.flatMap_append, List.flatMap_singleton]
    simp [Survey.nth, expr_builder hb, mountsOf, Nested.name?]

/-- The mounts that are noted for what a router nests. -/
def noted (b : Built) : List (String × Mount) := (b.router.nests []).flatMap (mountsOf b.function)

theorem reads_nestings (module : Option String) :
    Reads nestings module (fun function => ⟨function, ""⟩) noted where
  struct _ _ := rfl
  implementation _ _ _ _ := rfl
  module_eq _ _ _ := rfl
  imports _ _ := rfl
  function_eq _ _ := rfl
  indifferent := indifferent_nestings
  router function _ _ h := expr_nestings (builds_of_ofExpr? h) function []

theorem nestings_files {files : List SourceFile} {built : List Built} (hread : Built.ofFiles? files = some built) :
    (files.flatMap fun f => nestings.items {} f.items) = built.flatMap noted :=
  Reads.files_eq reads_nestings hread

theorem mem_mounted {router : Router String} {around rules : List String} {builder : String} :
    (rules, builder) ∈ router.mounted around ↔ (rules, .call builder) ∈ router.nests around := by
  induction router generalizing around with
  | new => simp [Router.mounted, Router.nests]
  | route base _ _ ih => exact ih
  | nest base rule inner ihb ihi => simp [Router.mounted, Router.nests, ihb, ihi]
  | mount base rule builder ih => simp [Router.mounted, Router.nests, ih]

theorem mem_calls {built : List Built} {c : Call String} :
    c ∈ calls built ↔ ∃ b ∈ built, (c.rules, .call c.builder) ∈ b.router.nests [] ∧ c.caller = b.function := by
  obtain ⟨caller, rules, builder⟩ := c
  simp only [calls, Router.calls, List.mem_flatMap, List.mem_map, ← mem_mounted]
  constructor
  · rintro ⟨b, hb, _, hmounted, heq⟩
    obtain ⟨rfl, rfl, rfl⟩ := Call.mk.inj heq
    exact ⟨b, hb, hmounted, rfl⟩
  · rintro ⟨b, hb, hmounted, rfl⟩
    exact ⟨b, hb, _, hmounted, rfl⟩

theorem mem_noted {built : List Built} {name : String} {mount : Mount} :
    (name, mount) ∈ built.flatMap noted ↔ ∃ b ∈ built, ∃ n ∈ b.router.nests [],
      n.2.name? = some name ∧ mount = ⟨b.function, n.1.foldl joinRules ""⟩ := by
  simp only [noted, mountsOf, List.mem_flatMap, Option.mem_toList, Option.map_eq_some_iff]
  constructor
  · rintro ⟨b, hb, n, hn, found, hname, heq⟩
    obtain ⟨rfl, rfl⟩ := Prod.mk.inj heq
    exact ⟨b, hb, n, hn, hname, rfl⟩
  · rintro ⟨b, hb, n, hn, hname, rfl⟩
    exact ⟨b, hb, n, hn, name, hname, rfl⟩

theorem ne_nil_of_mem_nests {router : Router String} {around : List String} {n : List String × Nested}
    (h : n ∈ router.nests around) : n.1 ≠ [] := by
  induction router generalizing around with
  | new => cases h
  | route base _ _ ih => exact ih h
  | nest base rule inner ihb ihi =>
    rcases List.mem_append.mp h with h | h
    · exact ihb h
    · rcases List.mem_cons.mp h with rfl | h
      · exact List.concat_ne_nil _ _
      · exact ihi h
  | mount base rule builder ih =>
    rcases List.mem_append.mp h with h | h
    · exact ih h
    · obtain rfl := List.mem_singleton.mp h
      exact List.concat_ne_nil _ _

theorem WellNested.exists_rules {built : List Built} (h : WellNested built) {b : Built} (hb : b ∈ built)
    {n : List String × Nested} (hn : n ∈ b.router.nests []) :
    ∃ rule rules, n.1 = rule :: rules ∧ Solid rule ∧ ∀ r ∈ rules, Solid r := by
  have hsolid := h.solid b hb n hn
  obtain ⟨rule, rules, hrules⟩ := List.exists_cons_of_ne_nil (ne_nil_of_mem_nests hn)
  rw [hrules] at hsolid
  exact ⟨rule, rules, hrules, hsolid rule List.mem_cons_self, fun r hr => hsolid r (.tail _ hr)⟩

theorem WellNested.joinRules_foldl {built : List Built} (h : WellNested built) {b : Built} (hb : b ∈ built)
    {n : List String × Nested} (hn : n ∈ b.router.nests []) (mount : String) :
    joinRules mount (n.1.foldl joinRules "") = n.1.foldl joinRules mount := by
  obtain ⟨rule, rules, hrules, hrule, hsolid⟩ := h.exists_rules hb hn
  rw [hrules]
  exact Project.joinRules_foldl hrule hsolid mount

theorem WellNested.solid_foldl {built : List Built} (h : WellNested built) {b : Built} (hb : b ∈ built)
    {n : List String × Nested} (hn : n ∈ b.router.nests []) : Solid (n.1.foldl joinRules "") := by
  obtain ⟨rule, rules, hrules, hrule, _⟩ := h.exists_rules hb hn
  rw [hrules]
  exact hrule.foldl_joinRules rules

/-- The functions that were visited on the way out to a function: they are mounted and nested in it, and none of them
was met twice. -/
structure Visited (calls : List (Call String)) (mounts : Mounts) (function : String) (visited : List String) : Prop where
  nodup : visited.Nodup
  mounted : ∀ v ∈ visited, v ∈ mounts.map Prod.fst
  nested : ∀ v ∈ visited, Relation.TransGen (Encloses calls) function v

namespace Visited
variable {calls : List (Call String)} {mounts : Mounts} {function : String} {visited : List String}

theorem nil (calls : List (Call String)) (mounts : Mounts) (function : String) : Visited calls mounts function [] where
  nodup := List.nodup_nil
  mounted _ hv := nomatch hv
  nested _ hv := nomatch hv

theorem length_le (h : Visited calls mounts function visited) : visited.length ≤ mounts.length := by
  have hle := h.nodup.length_le_of_subset h.mounted
  rwa [List.length_map] at hle

theorem cons (h : Visited calls mounts function visited)
    (acyclic : ∀ f, ¬ Relation.TransGen (Encloses calls) f f) {parent : String}
    (hparent : Encloses calls parent function) {mount : Mount} (hlookup : mounts.lookup function = some mount) :
    Visited calls mounts parent (function :: visited) where
  nodup := List.nodup_cons.mpr ⟨fun hv => acyclic function (h.nested function hv), h.nodup⟩
  mounted v hv := by
    rcases List.mem_cons.mp hv with rfl | hv
    · obtain ⟨before, after, hsplit, _⟩ := List.lookup_eq_some_iff.mp hlookup
      exact List.mem_map.mpr ⟨_, hsplit ▸ List.mem_append_right _ List.mem_cons_self, rfl⟩
    · exact h.mounted v hv
  nested v hv := by
    rcases List.mem_cons.mp hv with rfl | hv
    · exact .single hparent
    · exact .head hparent (h.nested v hv)

end Visited

section Chain
variable {files : List SourceFile} {built : List Built} (hread : Built.ofFiles? files = some built)
include hread

theorem lookup_ofFiles (function : String) :
    (Mounts.ofFiles files).lookup function = (built.flatMap noted).reverse.lookup function := by
  rw [Mounts.ofFiles, nestings_files hread, lookup_foldl_put, List.lookup_nil, Option.or_none]

theorem mem_noted_of_lookup {function : String} {mount : Mount}
    (h : (Mounts.ofFiles files).lookup function = some mount) : (function, mount) ∈ built.flatMap noted := by
  rw [lookup_ofFiles hread] at h
  obtain ⟨before, after, hsplit, _⟩ := List.lookup_eq_some_iff.mp h
  rw [← List.mem_reverse, hsplit]
  exact List.mem_append_right _ List.mem_cons_self

theorem exists_lookup {function : String} {mount : Mount} (h : (function, mount) ∈ built.flatMap noted) :
    ∃ found, (Mounts.ofFiles files).lookup function = some found := by
  rw [← Option.isSome_iff_exists, lookup_ofFiles hread, List.lookup_isSome_iff]
  exact ⟨(function, mount), List.mem_reverse.mpr h, beq_self_eq_true _⟩

/-- The mount noted for a function is that of a call, unless it could be that of an empty router. -/
theorem call_of_lookup {function : String} {mount : Mount}
    (h : (Mounts.ofFiles files).lookup function = some mount) (hnew : NestsNew built → function ≠ "new") :
    ∃ c ∈ calls built, c.builder = function ∧ mount = ⟨c.caller, c.rules.foldl joinRules ""⟩ := by
  obtain ⟨b, hb, ⟨rules, nested⟩, hn, hname, rfl⟩ := mem_noted.mp (mem_noted_of_lookup hread h)
  cases nested with
  | call builder =>
    obtain rfl := Option.some.inj hname
    exact ⟨⟨b.function, rules, builder⟩, mem_calls.mpr ⟨b, hb, hn, rfl⟩, rfl, rfl⟩
  | inline router =>
    cases router with
    | new => exact absurd (Option.some.inj hname).symm (hnew ⟨b, hb, _, hn, rfl⟩)
    | _ => cases hname

theorem unmounted_of_lookup {function : String} (h : (Mounts.ofFiles files).lookup function = none) :
    ∀ c ∈ calls built, c.builder ≠ function := by
  rintro c hc rfl
  obtain ⟨b, hb, hn, hf⟩ := mem_calls.mp hc
  obtain ⟨found, hfound⟩ := exists_lookup hread (mem_noted.mpr ⟨b, hb, _, hn, rfl, rfl⟩)
  rw [h] at hfound
  cases hfound

/-- From a function outwards, the chain of nestings leads to its mount path: it is never cut, since a chain of all
mounts and one more would have met a function twice. -/
theorem mountPath_of_chain (hnest : WellNested built) (hnew : NestsNew built → ∀ b ∈ built, b.function ≠ some "new")
    (n : Nat) {visited : List String} {function : String}
    (hvisited : Visited (calls built) (Mounts.ofFiles files) function visited)
    (hlength : visited.length + n = (Mounts.ofFiles files).length + 1) (hfunction : NestsNew built → function ≠ "new") :
    MountPath (calls built) (some function)
      (((Mounts.ofFiles files).chain n function).reverse.foldl joinRules "") := by
  induction n generalizing visited function with
  | zero =>
    have hle := hvisited.length_le
    omega
  | succ n ih =>
    cases hlookup : (Mounts.ofFiles files).lookup function with
    | none =>
      rw [Mounts.chain, hlookup]
      exact .unmounted (unmounted_of_lookup hread hlookup)
    | some mount =>
      obtain ⟨c, hc, hbuilder, rfl⟩ := call_of_lookup hread hlookup hfunction
      obtain ⟨b, hb, hn, hparent⟩ := mem_calls.mp hc
      rw [Mounts.chain, hlookup]
      simp only [List.reverse_cons, List.foldl_concat]
      rw [hnest.joinRules_foldl hb hn]
      refine .mounted hc hbuilder ?_
      cases hf : c.caller with
      | none => exact .outside
      | some parent =>
        refine ih (hvisited.cons hnest.acyclic ⟨c, hc, hf, hbuilder⟩ hlookup) (by rw [List.length_cons]; omega) ?_
        rintro hnests rfl
        exact hnew hnests b hb (hparent ▸ hf)

theorem mountPath_mountPath (hnest : WellNested built)
    (hnew : NestsNew built → ∀ b ∈ built, b.function ≠ some "new") {function : String}
    (hfunction : NestsNew built → function ≠ "new") :
    MountPath (calls built) (some function) ((Mounts.ofFiles files).mountPath function) :=
  mountPath_of_chain hread hnest hnew _ (.nil _ _ _) (Nat.zero_add _) hfunction

/-- The nesting of an empty router is taken for a mount of a function named like its constructor. -/
theorem solid_mountPath_new (hnest : WellNested built) (hnests : NestsNew built) :
    Solid ((Mounts.ofFiles files).mountPath "new") := by
  obtain ⟨b, hb, ⟨rules, nested⟩, hn, rfl⟩ := hnests
  obtain ⟨mount, hlookup⟩ := exists_lookup hread (mem_noted.mpr ⟨b, hb, _, hn, rfl, rfl⟩)
  obtain ⟨b', hb', n, hn', hname, rfl⟩ := mem_noted.mp (mem_noted_of_lookup hread hlookup)
  rw [Mounts.mountPath, Mounts.chain, hlookup]
  simp only [List.reverse_cons, List.foldl_concat]
  apply Solid.joinRules_right
  exact hnest.solid_foldl hb' hn'

end Chain

end ApiHandbook.Project.Axum
