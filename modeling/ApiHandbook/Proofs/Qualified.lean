import ApiHandbook.Proofs.Hosting

/-! Registrations whose handler paths are qualified by a module, such as `get(api::list)`, where the module has no function of
that name. The first function of the name in the project is taken in its place, with its module; only a name that no function
has is left in the module that qualifies it. -/
namespace ApiHandbook.Project
open Code

namespace Actix

/-- A place where something may be found: a function, or a method call with the scope around it. -/
inductive Place where
  | function (heading : Heading)
  | call (scope : String) (receiver : Expr) (method : String) (arguments : List Expr)

def places : Survey String Place :=
  { function := fun scope h => ([.function h], scope)
    call := fun scope receiver method arguments =>
      { found := [.call scope receiver method arguments], inside := scopeInside scope receiver } }

/-- What is found at a place. -/
def Place.findings (module : Option String) : Place → List Finding
  | .function h => (h.attributes.filterMap declaration?).map fun (verbs, path) =>
    .declared h.name ⟨path, verbs, .function h.name, module⟩
  | .call scope receiver method arguments => findingsOfCall module scope receiver method arguments

theorem findings_follows (module : Option String) : (findings module).Follows places id (Place.findings module) where
  function _ _ := by simp [findings, places, Place.findings]
  struct _ _ := rfl
  implementation _ _ _ _ := rfl
  module _ _ _ := rfl
  imports _ _ := rfl
  call _ _ _ _ := by simp [findings, places, Place.findings]

theorem mem_routes_of_call {files : List SourceFile} {f : SourceFile} (hf : f ∈ files) {scope : String} {receiver : Expr}
    {arguments : List Expr} (hcall : .call scope receiver "route" arguments ∈ places.items "" f.items) {r : FoundRoute}
    (hr : routeOfCall? f.module scope receiver arguments = some r) : r ∈ routes files := by
  have hfound : .called r ∈ (findings f.module).items "" f.items := by
    have hitems := (findings_follows f.module).items_eq "" f.items
    rw [id_eq] at hitems
    rw [hitems]
    refine List.mem_flatMap.mpr ⟨_, hcall, ?_⟩
    rw [Place.findings, findingsOfCall, if_pos rfl, hr]
    exact List.mem_cons_self
  exact List.mem_filterMap.mpr ⟨_, List.mem_flatMap.mpr ⟨f, hf, hfound⟩, rfl⟩

end Actix

/-- The rule of a call of `route`, and the handlers that are bound there, each with its verbs. -/
def Axum.RouteCall.bound? (call : RouteCall) : Option (String × List (FunctionName × List String)) :=
  match call.arguments with
  | path :: router :: _ => (textOf? path).map (·, byHandler (methodRouter router))
  | _ => none

/-- The registrations of functions, each with the handler path that it is read off. -/
inductive Names (files : List SourceFile) : Framework → FoundRoute → FunctionName → Prop where
  /-- A call such as `.route("/list", get(api::list))`, below the rules of the nestings around it. -/
  | axum {call : Axum.RouteCall} {rule : String} {handlers : List (FunctionName × List String)} {function : FunctionName}
      {verbs : List String} : call ∈ Axum.routeCalls files → call.bound? = some (rule, handlers) → (function, verbs) ∈ handlers →
      Names files .axum ⟨joinRules (call.rules.foldl joinRules ((Axum.Mounts.ofFiles files).pathOf call.function)) rule, verbs,
        .function function.name, function.module.or call.module⟩ function
  /-- A call such as `.route("/list", web::get().to(api::list))`, inside a scope. -/
  | actix {f : SourceFile} {scope : String} {receiver : Expr} {arguments : List Expr} {r : FoundRoute} {target : Expr}
      {verb : String} {function : FunctionName} : f ∈ files →
      .call scope receiver "route" arguments ∈ Actix.places.items "" f.items →
      Actix.routeOfCall? f.module scope receiver arguments = some r → arguments.getLast? = some target →
      Actix.routeTarget? target = some (verb, function) → Names files .actixWeb r function

namespace Names
variable {files : List SourceFile} {framework : Framework} {r : FoundRoute} {function : FunctionName}

theorem mem_routes (h : Names files framework r function) : r ∈ framework.routes files := by
  cases h with
  | @axum call rule handlers function verbs hcall hbound hfunction =>
    rw [Framework.routes, Axum.routes_eq]
    refine List.mem_flatMap.mpr ⟨call, hcall, ?_⟩
    unfold Axum.RouteCall.bound? at hbound
    split at hbound
    · rename_i path router rest harguments
      obtain ⟨text, htext, heq⟩ := Option.map_eq_some_iff.mp hbound
      cases heq
      rw [Axum.RouteCall.registered, harguments, Axum.routesOfCall, htext]
      refine List.mem_map.mpr ⟨_, hfunction, ?_⟩
      rw [Option.or_eq_orElse]
      rfl
    · cases hbound
  | actix hf hcall hr _ _ => exact Actix.mem_routes_of_call hf hcall hr

theorem target_eq (h : Names files framework r function) : r.target = .function function.name := by
  cases h with
  | axum => rfl
  | actix _ _ hr htarget hfunction =>
    obtain ⟨route, hlast, verb, handler, hhandler, -, heq, -⟩ := Actix.exists_last_of_routeOfCall? hr
    cases htarget.symm.trans hlast
    cases hfunction.symm.trans hhandler
    exact heq

/-- The module that qualifies a handler path counts, whatever the file. -/
theorem module_eq (h : Names files framework r function) {m : String} (hm : function.module = some m) : r.module = some m := by
  cases h with
  | axum => rw [hm, Option.some_or]
  | actix _ _ hr htarget hfunction =>
    obtain ⟨route, hlast, verb, handler, hhandler, -, -, heq⟩ := Actix.exists_last_of_routeOfCall? hr
    cases htarget.symm.trans hlast
    cases hfunction.symm.trans hhandler
    rw [heq, hm, Option.some_or]

end Names

/-- Whether an application has a registration under an endpoint, which leads to a handler. -/
structure RegistersAt (app : Application) (r : FoundRoute) (endpoint : String) (handler : Handler) : Prop where
  route_mem : ⟨r.path, r.methods, endpoint⟩ ∈ app.routes
  handler_eq : app.handler endpoint = some handler

namespace Index
variable {index : Index} {module : Option String} {name : String}

/-- Where a module has no function of a name, the first one in the project is selected. -/
theorem function?_of_absent (h : ∀ handler, .function module handler ∈ index → handler.name ≠ name) :
    index.function? module name = (index.functions name).head? := by
  have hnone : (index.functions name).find? (fun c => c.1 = module) = none := by
    refine List.find?_eq_none.mpr fun c hc hmodule => ?_
    obtain ⟨hmem, hname⟩ := mem_functions_iff.mp hc
    exact h c.2 (of_decide_eq_true hmodule ▸ hmem) hname
  rw [function?_eq, hnone, Option.none_or]

end Index

def stallsRoot : String :=
  "fn app() \x7b Router::new().route(\"/list\", get(api::list)).route(\"/gone\", get(api::gone)) \x7d"

/-- A router whose handler paths name the module `api`, which has no functions, and another module with one of them. -/
def stalls : List SourceFile := Axum.filesOf [(none, stallsRoot), (some "shop", "/// Foreign\nfn list() \x7b\x7d")]

def stallsIndex : Index :=
  [.function none { name := "app", source := some stallsRoot },
    .function (some "shop") { name := "list", doc := some "Foreign", source := some "/// Foreign\nfn list() \x7b\x7d" }]

set_option synthInstance.maxSize 1000 in
theorem read_stalls : Index.ofFiles stalls = stallsIndex ∧ Axum.Mounts.ofFiles stalls = [] ∧
    ((Axum.routeCalls stalls).map fun call => (call.bound?, call.function, call.rules, call.module)) =
      [(some ("/list", [(⟨some "api", "list"⟩, ["GET"])]), some "app", [], none),
        (some ("/gone", [(⟨some "api", "gone"⟩, ["GET"])]), some "app", [], none)] := by
  decide +kernel

theorem names_stalls {rule name : String} (h : (rule, name) ∈ [("/list", "list"), ("/gone", "gone")]) :
    Names stalls .axum ⟨rule, ["GET"], .function name, some "api"⟩ ⟨some "api", name⟩ := by
  have hcall : (some (rule, [((⟨some "api", name⟩ : FunctionName), ["GET"])]), some "app", [], none) ∈
      (Axum.routeCalls stalls).map fun call => (call.bound?, call.function, call.rules, call.module) := by
    rw [read_stalls.2.2]
    rcases List.mem_pair.mp h with heq | heq <;> cases heq
    · exact List.mem_cons_self
    · exact .tail _ List.mem_cons_self
  obtain ⟨call, hmem, heq⟩ := List.mem_map.mp hcall
  obtain ⟨hbound, hfunction, hrules, hmodule⟩ := by simpa only [Prod.mk.injEq] using heq
  have hnames := Names.axum hmem hbound List.mem_cons_self
  rw [hrules, hfunction, read_stalls.2.1] at hnames
  exact hnames

theorem isRead_stalls : ∀ f ∈ stalls, f.IsRead := by
  intro f hf
  obtain ⟨⟨module, text⟩, -, hf⟩ := List.mem_filterMap.mp hf
  exact .of_toOption hf

theorem absent_stalls (name : String) :
    ∀ handler, .function (some "api") handler ∈ Index.ofFiles stalls → handler.name ≠ name := by
  intro handler hmem
  rw [read_stalls.1] at hmem
  simp [stallsIndex] at hmem

end ApiHandbook.Project
