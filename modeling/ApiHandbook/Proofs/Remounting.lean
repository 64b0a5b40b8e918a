import ApiHandbook.Project.Index
import ApiHandbook.Proofs.Positions

/-! Functions whose routers are nested at several places. One mount is noted for each function, so that its routes are
extracted once, where the last calls of `nest` lead. -/
namespace ApiHandbook.Project.Axum
open Code

/-- A function of a project in which no two functions share a name. -/
def bare (name : String) : FunctionName := ⟨none, name⟩

/-- Whether an expression makes an empty router in place. -/
def isEmptyRouter : Expr → Bool
  | .call (.path _ p _) _ => isNew p
  | _ => false

/-- The call by which the router of a function is nested; none if the router is built in place. -/
def Nesting.call? (n : Nesting) : Option NamedCall :=
  if isEmptyRouter n.router then none
  else (calledFunction? n.router).map fun builder => ⟨n.function.map bare, n.rules, bare builder⟩

/-- The calls by which routers that functions build are nested, in the order of the files and their texts. -/
def mountCalls (files : List SourceFile) : List NamedCall := (nestingsOf files).filterMap Nesting.call?

/-- The last call for each function. -/
def lastCalls (calls : List NamedCall) : List NamedCall :=
  calls.filter fun c => lastCall? calls c.builder.name = some c

/-- Whether an empty router is nested as it stands. -/
def NestsEmpty (files : List SourceFile) : Prop := ∃ n ∈ nestingsOf files, isEmptyRouter n.router = true

instance (files : List SourceFile) : Decidable (NestsEmpty files) :=
  inferInstanceAs (Decidable (∃ n ∈ nestingsOf files, isEmptyRouter n.router = true))

/-- Whether a function named `new` registers or nests anything. -/
def NewBuilds (files : List SourceFile) : Prop :=
  (∃ r ∈ routeCalls files, r.function = some "new") ∨ ∃ n ∈ nestingsOf files, n.function = some "new"

section LastCalls
variable {calls : List NamedCall}

theorem mem_lastCalls {c : NamedCall} : c ∈ lastCalls calls ↔ lastCall? calls c.builder.name = some c := by
  rw [lastCalls, List.mem_filter, decide_eq_true_eq]
  exact ⟨And.right, fun h => ⟨mem_of_lastCall? h, h⟩⟩

theorem Encloses.of_lastCalls {outer inner : FunctionName} (h : Encloses (lastCalls calls) outer inner) :
    Encloses calls outer inner := by
  obtain ⟨c, hc, hcaller⟩ := h
  exact ⟨c, mem_of_lastCall? (mem_lastCalls.mp hc), hcaller⟩

theorem acyclic_lastCalls (acyclic : ∀ function, ¬ Relation.TransGen (Encloses calls) function function)
    (function : FunctionName) : ¬ Relation.TransGen (Encloses (lastCalls calls)) function function :=
  fun hcycle => acyclic function (Relation.TransGen.mono (fun _ _ => Encloses.of_lastCalls) _ _ hcycle)

variable {function : Option FunctionName} {chain : List NamedCall}

theorem Chain.mem_calls (h : Chain calls function chain) {c : NamedCall} (hc : c ∈ chain) : c ∈ calls := by
  induction h with
  | outside => cases hc
  | unmounted _ => cases hc
  | mounted hfirst _ _ ih =>
    rcases List.mem_cons.mp hc with rfl | hc
    · exact hfirst
    · exact ih hc

/-- A function has at most one chain of last calls. -/
theorem Chain.unique_of_lastCalls (h : Chain (lastCalls calls) function chain) {other : List NamedCall}
    (h' : Chain (lastCalls calls) function other) : chain = other := by
  refine h.unique_of_injective (fun c hc c' hc' hbuilder => ?_) h'
  have hlast := mem_lastCalls.mp hc
  rw [hbuilder, mem_lastCalls.mp hc'] at hlast
  exact (Option.some.inj hlast).symm

variable (hbare : ∀ c ∈ calls, c.builder = bare c.builder.name)
include hbare

theorem exists_mem_lastCalls {c : NamedCall} (hc : c ∈ calls) : ∃ last ∈ lastCalls calls, last.builder = c.builder := by
  obtain ⟨last, hlast⟩ := exists_lastCall? hc
  have hname : last.builder.name = c.builder.name := by simpa using List.find?_some hlast
  refine ⟨last, mem_lastCalls.mpr (hname ▸ hlast), ?_⟩
  rw [hbare last (mem_of_lastCall? hlast), hbare c hc, hname]

/-- A chain of last calls is one of the chains of a function. -/
theorem Chain.of_lastCalls (h : Chain (lastCalls calls) function chain) : Chain calls function chain := by
  induction h with
  | outside => exact .outside
  | unmounted hnone =>
    refine .unmounted fun c hc hb => ?_
    obtain ⟨last, hlast, hbuilder⟩ := exists_mem_lastCalls hbare hc
    exact hnone last hlast (hbuilder.trans hb)
  | mounted hc hb _ ih => exact .mounted (mem_of_lastCall? (mem_lastCalls.mp hc)) hb ih

end LastCalls

section Project
variable {files : List SourceFile}

theorem builder_of_mem_mountCalls {c : NamedCall} (hc : c ∈ mountCalls files) : c.builder = bare c.builder.name := by
  obtain ⟨n, -, hn⟩ := List.mem_filterMap.mp hc
  rw [Nesting.call?, Option.ite_none_left_eq_some] at hn
  obtain ⟨builder, -, rfl⟩ := Option.map_eq_some_iff.mp hn.2
  rfl

/-- The mount of a call as it is noted. -/
def Call.mount (c : NamedCall) : Mount := ⟨c.caller.map FunctionName.name, c.path⟩

/-- The mounts that are noted for a name are those of its calls, unless an empty router could be taken for one. -/
theorem filter_noted {name : String} (n : Nesting) (hnew : name = "new" → isEmptyRouter n.router = false) :
    n.noted.filter (·.1 == name) =
      (n.call?.toList.filter (·.builder.name == name)).map fun c => (c.builder.name, c.mount) := by
  have hcaller : (n.function.map bare).map FunctionName.name = n.function := by
    rw [Option.map_map]
    exact Option.map_id_apply
  rw [Nesting.noted, Nesting.call?]
  by_cases hempty : isEmptyRouter n.router = true
  · have hname : calledFunction? n.router = some "new" := by
      revert hempty
      fun_cases isEmptyRouter n.router with
      | case1 => exact last?_of_isNew
      | case2 =>
        intro hempty
        cases hempty
    have hne : ("new" == name) = false := beq_eq_false_iff_ne.mpr fun h => by simp [hnew h.symm] at hempty
    simp [hempty, hname, hne]
  · rw [if_neg hempty]
    cases calledFunction? n.router with
    | none => rfl
    | some builder =>
      by_cases hb : (builder == name) = true <;>
        simp [bare, Call.mount, Call.path, hb, hcaller]

theorem lookup_mountCalls (name : String) (hnew : name = "new" → ¬ NestsEmpty files) :
    (Mounts.ofFiles files).lookup name = (lastCall? (mountCalls files) name).map Call.mount := by
  have hfilter : ((nestingsOf files).flatMap Nesting.noted).filter (·.1 == name) =
      ((mountCalls files).filter (·.builder.name == name)).map fun c => (c.builder.name, c.mount) := by
    rw [mountCalls, List.filterMap_eq_flatMap_toList, List.filter_flatMap, List.filter_flatMap, List.map_flatMap]
    refine List.flatMap_congr fun n hn => filter_noted n fun hname => ?_
    exact Bool.not_eq_true _ ▸ fun hempty => hnew hname ⟨n, hn, hempty⟩
  rw [lookup_nestingsOf, lookup_reverse, hfilter, List.getLast?_map, Option.map_map, lastCall?, ← List.head?_filter,
    List.filter_reverse, List.head?_reverse]
  rfl

variable (hnew : NestsEmpty files → ¬ NewBuilds files)
include hnew

/-- From a function outwards, the mounts lead along the chain of last calls. -/
theorem leads_of_lastCalls {function : Option FunctionName} {chain : List NamedCall}
    (hchain : Chain (lastCalls (mountCalls files)) function chain) (hbare : ∀ f ∈ function, f = bare f.name)
    (hfunction : NestsEmpty files → function.map FunctionName.name ≠ some "new") :
    (Mounts.ofFiles files).Leads (function.map FunctionName.name) (chain.map fun c => (c.builder.name, c.mount)) := by
  induction hchain with
  | outside => exact .outside
  | @unmounted f hnone =>
    refine .last ?_
    rw [lookup_mountCalls f.name fun hname hempty => hfunction hempty (congrArg some hname)]
    cases hlast : lastCall? (mountCalls files) f.name with
    | none => rfl
    | some c =>
      have hname : c.builder.name = f.name := by simpa using List.find?_some hlast
      have hb : c.builder = f := by
        rw [builder_of_mem_mountCalls (mem_of_lastCall? hlast), hname, ← hbare f rfl]
      exact absurd hb (hnone c (mem_lastCalls.mpr (hname ▸ hlast)))
  | @mounted c f chain hc hb hchain ih =>
    subst hb
    have hlast := mem_lastCalls.mp hc
    obtain ⟨n, hn, hcall⟩ := List.mem_filterMap.mp (mem_of_lastCall? hlast)
    have hcaller : c.caller = n.function.map bare := by
      rw [Nesting.call?, Option.ite_none_left_eq_some] at hcall
      obtain ⟨builder, -, rfl⟩ := Option.map_eq_some_iff.mp hcall.2
      rfl
    refine .step (by rw [lookup_mountCalls _ fun hname hempty => hfunction hempty (congrArg some hname), hlast]; rfl) ?_
    refine ih (fun f hf => ?_) fun hempty hname => hnew hempty (.inr ⟨n, hn, ?_⟩)
    · rw [hcaller] at hf
      obtain ⟨name, -, rfl⟩ := Option.map_eq_some_iff.mp hf
      rfl
    · rwa [hcaller, Option.map_map, show FunctionName.name ∘ bare = id from rfl, Option.map_id_apply] at hname

/-- The path that the mounts of a function lead to is that of its chain of last calls. -/
theorem pathOf_of_lastCalls (acyclic : ∀ function, ¬ Relation.TransGen (Encloses (mountCalls files)) function function)
    {function : Option String} {chain : List NamedCall}
    (hchain : Chain (lastCalls (mountCalls files)) (function.map bare) chain)
    (hfunction : NestsEmpty files → function ≠ some "new") : (Mounts.ofFiles files).pathOf function = chainPath chain := by
  cases function with
  | none =>
    cases hchain
    rfl
  | some name =>
    have hleads : (Mounts.ofFiles files).Leads (some name) _ :=
      leads_of_lastCalls hnew hchain (fun _ hf => Option.some.inj hf ▸ rfl) hfunction
    rw [Mounts.pathOf, hleads.mountPath_eq, List.foldr_map]
    · rfl
    · rw [List.map_map]
      refine List.Nodup.map_on (fun c hc c' hc' heq => ?_) (hchain.nodup (acyclic_lastCalls acyclic))
      have hlast := mem_lastCalls.mp (hchain.mem_calls hc)
      have hlast' := mem_lastCalls.mp (hchain.mem_calls hc')
      exact Option.some.inj (hlast.symm.trans ((congrArg _ heq).trans hlast'))

omit hnew in
/-- Every call of `route` is extracted once, wherever and however often the function around it is nested: under the chain
of the last calls that nest this function and those around it. -/
theorem routes_of_last_calls (acyclic : ∀ function, ¬ Relation.TransGen (Encloses (mountCalls files)) function function)
    (hnew : NestsEmpty files → ¬ NewBuilds files) : ∃ chain : Option String → List NamedCall,
    (∀ function met, Chain (lastCalls (mountCalls files)) (function.map bare) met ↔ met = chain function) ∧
    (∀ function, Chain (mountCalls files) (function.map bare) (chain function)) ∧
    routes files = (routeCalls files).flatMap fun r => r.registered (chainPath (chain r.function)) := by
  choose chain hchain using fun function : Option String =>
    Chain.exists_of_acyclic (acyclic_lastCalls acyclic) (function.map bare)
  refine ⟨chain, fun function met => ⟨fun h => h.unique_of_lastCalls (hchain function), fun h => h ▸ hchain function⟩,
    fun function => (hchain function).of_lastCalls fun _ => builder_of_mem_mountCalls, ?_⟩
  rw [routes_eq]
  refine List.flatMap_congr fun r hr => ?_
  rw [pathOf_of_lastCalls hnew acyclic (hchain r.function) fun hempty hr' => hnew hempty (.inl ⟨r, hr, hr'⟩)]

end Project

/-- The names of the functions that a project defines. -/
def functionNames (files : List SourceFile) : List String :=
  (Index.ofFiles files).filterMap fun d =>
    match d with
    | .function _ handler => some handler.name
    | _ => none

/-- A router that is nested twice, and one that is nested in it. -/
def editions : List SourceFile := filesOf
  [(none, "fn app() -> Router \x7b Router::new().nest(\"/v1\", routes()).nest(\"/v2\", routes()) \x7d"),
    (some "shop", "fn routes() -> Router \x7b Router::new().route(\"/all\", get(list)).nest(\"/old\", archive()) \x7d " ++
      "fn archive() -> Router \x7b Router::new().route(\"/done\", get(done).post(close)) \x7d")]

def editionCalls : List NamedCall :=
  [⟨some (bare "app"), ["/v1"], bare "routes"⟩, ⟨some (bare "app"), ["/v2"], bare "routes"⟩,
    ⟨some (bare "routes"), ["/old"], bare "archive"⟩]

theorem read_editions : mountCalls editions = editionCalls ∧ ¬ NestsEmpty editions ∧
    (functionNames editions).Nodup ∧
    routes editions = [⟨"/v2/all", ["GET"], .function "list", some "shop"⟩,
      ⟨"/v2/old/done", ["GET"], .function "done", some "shop"⟩, ⟨"/v2/old/done", ["POST"], .function "close", some "shop"⟩] ∧
    (routeCalls editions).map (fun r => (r.function, r.registered "/v1")) =
      [(some "routes", [⟨"/v1/all", ["GET"], .function "list", some "shop"⟩]),
        (some "archive", [⟨"/v1/done", ["GET"], .function "done", some "shop"⟩,
          ⟨"/v1/done", ["POST"], .function "close", some "shop"⟩])] := by decide +kernel

theorem acyclic_editions (function : FunctionName) :
    ¬ Relation.TransGen (Encloses (mountCalls editions)) function function :=
  read_editions.1 ▸ acyclic_of_rank (fun f => ["app", "routes", "archive"].idxOf f.name) (by decide) function

theorem routes_of_second_edition : (∀ function, ¬ Relation.TransGen (Encloses (mountCalls editions)) function function) ∧
    ¬ NestsEmpty editions ∧ ∃ chain : Option String → List NamedCall,
      chain (some "archive") =
        [⟨some (bare "routes"), ["/old"], bare "archive"⟩, ⟨some (bare "app"), ["/v2"], bare "routes"⟩] ∧
      routes editions = (routeCalls editions).flatMap fun r => r.registered (chainPath (chain r.function)) := by
  obtain ⟨chain, hchain, -, hroutes⟩ := routes_of_last_calls acyclic_editions fun h => absurd h read_editions.2.1
  refine ⟨acyclic_editions, read_editions.2.1, chain, ?_, hroutes⟩
  refine ((hchain (some "archive") _).mp ?_).symm
  rw [read_editions.1]
  exact .mounted (by decide) rfl (.mounted (by decide) rfl (.unmounted (by decide)))

/-- The routes of a function that is nested twice are not extracted where it is nested first. -/
theorem mount_not_extracted : (functionNames editions).Nodup ∧
    (∀ function, ¬ Relation.TransGen (Encloses (mountCalls editions)) function function) ∧
    ∃ r ∈ routeCalls editions, ∃ chain, Chain (mountCalls editions) (r.function.map bare) chain ∧
      ∃ route ∈ r.registered (chainPath chain), route ∉ routes editions := by
  obtain ⟨hcalls, -, hnames, hroutes, hregistered⟩ := read_editions
  have hfirst : (some "routes", [⟨"/v1/all", ["GET"], .function "list", some "shop"⟩]) ∈
      (routeCalls editions).map fun r => (r.function, r.registered "/v1") := hregistered ▸ List.mem_cons_self
  obtain ⟨r, hr, heq⟩ := List.mem_map.mp hfirst
  obtain ⟨hfunction, hroute⟩ := Prod.mk.inj heq
  refine ⟨hnames, acyclic_editions, r, hr, [⟨some (bare "app"), ["/v1"], bare "routes"⟩], ?_,
    ⟨"/v1/all", ["GET"], .function "list", some "shop"⟩, ?_, ?_⟩
  · rw [hfunction, hcalls]
    exact .mounted (by decide) rfl (.unmounted (by decide))
  · exact hroute.symm ▸ List.mem_cons_self
  · rw [hroutes]
    decide

end ApiHandbook.Project.Axum
