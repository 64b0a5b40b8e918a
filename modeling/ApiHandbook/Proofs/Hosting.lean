import ApiHandbook.Proofs.Comments
import ApiHandbook.Proofs.Endpoints
import ApiHandbook.Proofs.Exclusion
import ApiHandbook.Proofs.Positions

/-! A function that is documented by comments and registered in the source of a project has the same documentation as one
that a host registers with its docstring: the entry of a route that is alone under its name depends on nothing but the
route, the name of its handler and the docstring. -/
namespace ApiHandbook
open Text

variable {settings : Settings}

/-! Single entries of an aggregate -/

/-- Whether no other route than `r` is documented under a name in a group. -/
def RouteSource.Alone (source : RouteSource) (settings : Settings) (r : Route) (group name : String) : Prop :=
  ∀ r' ∈ source.routes.erase r, ∀ c ∈ r'.classify settings source, ¬ (c.group = group ∧ c.name = name)

namespace Aggregate

/-- The entry of a name in the group of a name. -/
def entryAt? (groups : Aggregate) (group name : String) : Option Entry :=
  (groups.get? group).bind fun g => g.children.find? fun e => e.name == name

theorem find?_eq_some_iff {entries : List Entry} (h : (entries.map Entry.name).Nodup) {name : String} {e : Entry} :
    entries.find? (fun e => e.name == name) = some e ↔ e ∈ entries ∧ e.name = name := by
  constructor
  · intro hfind
    exact ⟨List.mem_of_find?_eq_some hfind, by simpa using List.find?_some hfind⟩
  · rintro ⟨hmem, hname⟩
    cases hfind : entries.find? fun e => e.name == name with
    | none => exact absurd (beq_iff_eq.mpr hname) (List.find?_eq_none.mp hfind e hmem)
    | some e' =>
      have hname' : e'.name = name := by simpa using List.find?_some hfind
      exact congrArg some (List.inj_on_of_nodup_map h (List.mem_of_find?_eq_some hfind) hmem (hname'.trans hname.symm))

theorem entryAt?_build_eq_some_iff {source : RouteSource} {group name : String} {e : Entry} :
    (build settings source).entryAt? group name = some e ↔ e ∈ gathered settings source group ∧ e.name = name := by
  have hnodup : ((sortEntries (gathered settings source group)).map Entry.name).Nodup :=
    ((List.mergeSort_perm _ _).map Entry.name).nodup_iff.mpr ((entryGathering settings).nodup_keys _)
  have hmem : e ∈ sortEntries (gathered settings source group) ↔ e ∈ gathered settings source group :=
    (List.mergeSort_perm _ _).mem_iff
  cases hget : (build settings source).get? group with
  | none =>
    have hgathered : gathered settings source group = [] := by
      by_contra hne
      obtain ⟨g, hg, hname⟩ := exists_mem_build settings source hne
      exact absurd (beq_iff_eq.mpr hname) (List.find?_eq_none.mp hget g hg)
    rw [entryAt?, hget, Option.bind_none, hgathered]
    simp
  | some g =>
    have hname : g.name = group := by simpa using List.find?_some hget
    obtain ⟨hchildren, -⟩ := children_of_mem_build settings source (List.mem_of_find?_eq_some hget)
    rw [entryAt?, hget, Option.bind_some, hchildren, hname, find?_eq_some_iff hnodup, hmem]

/-- The entry of a name in a group is what the routes classified there make. -/
theorem entryAt?_build (source : RouteSource) (group name : String) :
    (build settings source).entryAt? group name =
      ((source.classify settings).filter fun c => c.group = group ∧ c.name = name).foldl (entryGathering settings).next
        none := by
  have hentry := (entryGathering settings).find?_gather (routesOfGroup (source.classify settings) group) name
  rw [Gathering.entryOf] at hentry
  change _ = ((routesOfGroup (source.classify settings) group).filter fun c => c.name = name).foldl _ none at hentry
  rw [filter_routesOfGroup] at hentry
  apply Option.ext
  intro e
  rw [entryAt?_build_eq_some_iff, ← hentry]
  exact (find?_eq_some_iff ((entryGathering settings).nodup_keys _)).symm

/-- Where only one of the routes is classified under a name in a group, that route alone makes the entry. -/
theorem entryAt?_build_of_alone {source : RouteSource} {r : Route} (hr : r ∈ source.routes) {group name : String}
    (h : source.Alone settings r group name) :
    (build settings source).entryAt? group name =
      ((r.classify settings source).filter fun c => c.group = group ∧ c.name = name).foldl (entryGathering settings).next
        none := by
  obtain ⟨before, after, -, hroutes, herase⟩ := List.exists_erase_eq hr
  have hnone {routes : List Route} (hsub : ∀ r' ∈ routes, r' ∈ before ++ after) :
      (routes.flatMap fun r' => r'.classify settings source).filter (fun c => c.group = group ∧ c.name = name) = [] := by
    refine List.filter_eq_nil_iff.mpr fun c hc => ?_
    obtain ⟨r', hr', hc⟩ := List.mem_flatMap.mp hc
    simpa using h r' (herase ▸ hsub r' hr') c hc
  rw [entryAt?_build, RouteSource.classify, hroutes, List.flatMap_append, List.flatMap_cons, List.filter_append,
    List.filter_append, hnone fun _ => List.mem_append_left _, hnone fun _ => List.mem_append_right _, List.nil_append,
    List.append_nil]

end Aggregate

/-! Entries of functions -/

/-- The entry that the route of a function makes by itself. -/
def Route.entryOf? (settings : Settings) (r : Route) (h : Handler) : Option Entry :=
  (r.classifyFunction settings (some h)).head?.map fun c => Entry.opened settings c h

theorem classifyFunction_eq (settings : Settings) (r : Route) (h : Handler) :
    r.classifyFunction settings (some h) = [] ∨
    r.classifyFunction settings (some h) =
      [⟨.api, mapped capitalize r.moduleName, none, mapped humanize h.name, r.rule, settings.allowedMethods r.methods,
        some h⟩] := by
  rw [Route.classifyFunction]
  split_ifs
  · exact .inl rfl
  · exact .inl rfl
  · exact .inl rfl
  · exact .inr rfl

theorem opened_congr (htables : settings.argumentTables = false) (c : ClassifiedRoute) {h h' : Handler}
    (hdoc : h.doc = h'.doc) (handler : Option Handler) :
    Entry.opened settings { c with handler := handler } h = Entry.opened settings c h' := by
  have hdocstring : h.docstring = h'.docstring := congrArg (Option.filter _) hdoc
  simp only [Entry.opened, Settings.markdownBlock, htables, hdocstring, Bool.false_eq_true, if_false]

/-- Without tables of arguments, the entry depends on no more of the function than its name and its docstring. -/
theorem entryOf?_congr (htables : settings.argumentTables = false) (r : Route) {h h' : Handler}
    (hname : h.name = h'.name) (hdoc : h.doc = h'.doc) : r.entryOf? settings h = r.entryOf? settings h' := by
  have hclassify : r.classifyFunction settings (some h) =
      (r.classifyFunction settings (some h')).map fun c => { c with handler := some h } := by
    simp only [Route.classifyFunction, Route.functionName, hname]
    split_ifs <;> simp_all
  rw [Route.entryOf?, Route.entryOf?, hclassify, List.head?_map, Option.map_map]
  exact congrArg (Option.map · _) (funext fun c => opened_congr htables c hdoc _)

/-- What the entry holds of a function that is shown. -/
theorem entryOf?_of_shown {app : Application} {r : Route} {h : Handler} (hh : app.handler r.endpoint = some h)
    (hview : h.viewClass = none) {group name : String} (hshown : ShownFunction settings app r group name) :
    r.entryOf? settings h = some
      (Entry.opened settings ⟨.api, group, none, name, r.rule, settings.allowedMethods r.methods, some h⟩ h) := by
  have hmem := (mem_classifyFunction_iff hh hview
    ⟨.api, group, none, name, r.rule, settings.allowedMethods r.methods, some h⟩).mpr ⟨hshown, rfl⟩
  rw [Route.entryOf?]
  rcases classifyFunction_eq settings r h with hnil | hcons
  · rw [hnil] at hmem
    cases hmem
  · rw [hcons] at hmem
    rw [hcons, List.mem_singleton.mp hmem]
    rfl

/-- A function's route that is alone under the name of its function makes the entry there. -/
theorem entryAt?_of_function {app : Application} {r : Route} {h : Handler} (hr : r ∈ app.routes)
    (hh : app.handler r.endpoint = some h) (hview : h.viewClass = none)
    (halone : app.source.Alone settings r (mapped capitalize r.moduleName) (mapped humanize h.name)) :
    (Aggregate.build settings app.source).entryAt? (mapped capitalize r.moduleName) (mapped humanize h.name) =
      r.entryOf? settings h := by
  rw [Aggregate.entryAt?_build_of_alone hr halone, classify_of_function hh hview, Route.entryOf?]
  rcases classifyFunction_eq settings r h with hnil | hcons
  · rw [hnil]
    rfl
  · rw [hcons, List.filter_cons_of_pos (by simp)]
    rfl

namespace Code

/-- Whether an item stands among others, or among those of a module there. -/
inductive Item.Among (i : Item) : List Item → Prop where
  | here {items : List Item} : i ∈ items → Among i items
  | inside {items members : List Item} {name : String} {inline : Bool} :
    .module name inline members ∈ items → Among i members → Among i items

theorem Survey.mem_items {κ α : Type} {v : Survey κ α} {known : κ} {a : α} {i : Item} {items : List Item} (hi : i ∈ items)
    (ha : a ∈ v.item known i) : a ∈ v.items known items := by
  induction items with
  | nil => cases hi
  | cons first rest ih =>
    rw [Survey.items]
    rcases List.mem_cons.mp hi with rfl | hi
    · exact List.mem_append_left _ ha
    · exact List.mem_append_right _ (ih hi)

end Code

namespace Project
open Code

/-- The functions of a file that declares a module belong to this module. -/
theorem mem_definitions {f : SourceFile} {module : String} (hmodule : f.module = some module) {h : Heading}
    {body : List Expr} {items : List Item} (hi : (Item.function h body).Among items) :
    .function (some module) (handlerOf f h) ∈ (definitions f).items f.module items := by
  rw [hmodule]
  induction hi with
  | here hmem => exact Survey.mem_items hmem List.mem_cons_self
  | inside hmem _ ih => exact Survey.mem_items hmem ih

theorem Index.mem_functions_iff {index : Index} {name : String} {c : Option String × Handler} :
    c ∈ index.functions name ↔ .function c.1 c.2 ∈ index ∧ c.2.name = name := by
  rw [functions, List.mem_filterMap]
  constructor
  · rintro ⟨d, hd, hc⟩
    split at hc
    · rw [Option.ite_none_right_eq_some, Option.some.injEq] at hc
      obtain ⟨hname, rfl⟩ := hc
      exact ⟨hd, hname⟩
    · cases hc
  · rintro ⟨hmem, hname⟩
    exact ⟨_, hmem, if_pos hname⟩

/-- Where a module has one function of a name, routes of the module select it. -/
theorem Index.selected_of_sole {index : Index} {module : String} {handler : Handler}
    (hmem : .function (some module) handler ∈ index)
    (hsole : ∀ h, .function (some module) h ∈ index → h.name = handler.name → h = handler) {r : FoundRoute}
    (hmodule : r.module = some module) (hname : r.target.name = handler.name) :
    index.selected r = (some module, handler) := by
  have hcandidate : (some module, handler) ∈ index.functions handler.name := mem_functions_iff.mpr ⟨hmem, rfl⟩
  have hfind : (index.functions handler.name).find? (fun c => c.1 = some module) = some (some module, handler) := by
    cases hfound : (index.functions handler.name).find? fun c => c.1 = some module with
    | none => exact absurd (decide_eq_true rfl) (List.find?_eq_none.mp hfound _ hcandidate)
    | some c =>
      have hown : c.1 = some module := by simpa using List.find?_some hfound
      obtain ⟨hc, hcname⟩ := mem_functions_iff.mp (List.mem_of_find?_eq_some hfound)
      exact congrArg some (Prod.ext hown (hsole c.2 (hown ▸ hc) hcname))
  have hfunction : index.function? r.module r.target.name = some (some module, handler) := by
    rw [function?_eq, hmodule, hname, hfind, Option.some_or]
  rw [selected, hfunction]

namespace Axum

/-- The URL, the verb and the handler of a call `.route(url, verb(handler))`. -/
def RouteCall.single? (r : RouteCall) : Option (String × String × FunctionName) :=
  match r.arguments with
  | [path, .call (.path _ routing _) [handler]] => do
    let url ← textOf? path
    let verb ← routing.last?
    let handler ← handlerName? handler
    return (url, verb, handler)
  | _ => none

theorem registered_of_single? {r : RouteCall} {url verb name upper : String}
    (h : r.single? = some (url, verb, ⟨none, name⟩)) (hverb : verb? verb = some upper) (hrules : r.rules = []) :
    r.registered "" = [⟨url, [upper], .function name, r.module⟩] := by
  rw [RouteCall.single?] at h
  split at h
  · rename_i path qualified routing inner handler harguments
    obtain ⟨text, hpath, h⟩ := Option.bind_eq_some_iff.mp h
    obtain ⟨last, hrouting, h⟩ := Option.bind_eq_some_iff.mp h
    obtain ⟨function, hhandler, h⟩ := Option.bind_eq_some_iff.mp h
    cases h
    simp [RouteCall.registered, hrules, harguments, routesOfCall, hpath, methodRouter, hrouting, binding?, hverb, hhandler,
      byHandler, addVerb, joinRules]
  · cases h

theorem finds_routeSites (p : String → Prop) (module : Option String) :
    (routeSites module).Finds p fun r => r.module = module where
  function _ _ _ := nofun
  struct _ _ := nofun
  implementation _ _ _ _ _ := nofun
  imports _ _ := nofun
  call around receiver method arguments _ _ := by
    rw [routeSites]
    dsimp only
    cases nesting? method arguments with
    | some found =>
      intro r hr
      cases hr
    | none =>
      intro r hr
      rw [List.mem_ite_nil_right, List.mem_singleton] at hr
      rw [hr.2]

/-- The router of a function that is nested nowhere is mounted at the root. -/
theorem pathOf_of_unnested {files : List SourceFile} {function : String}
    (h : ∀ n ∈ nestingsOf files, calledFunction? n.router ≠ some function) :
    (Mounts.ofFiles files).pathOf (some function) = "" := by
  have hnone : (Mounts.ofFiles files).lookup function = none := by
    rw [lookup_nestingsOf, List.lookup_eq_none_iff]
    intro entry hentry
    obtain ⟨n, hn, hnoted⟩ := List.mem_flatMap.mp (List.mem_reverse.mp hentry)
    obtain ⟨builder, hbuilder, rfl⟩ := Option.map_eq_some_iff.mp (Option.mem_toList.mp hnoted)
    refine bne_iff_ne.mpr fun heq => h n hn ?_
    rw [hbuilder, heq]
  exact (Mounts.Leads.last hnone).mountPath_eq List.nodup_nil

end Axum

/-- A function of a module, behind comments that hold its docstring, and the call in a router function of the same file
that registers it, alone, at a URL for a verb. -/
structure Listing (files : List SourceFile) (module name doc url verb : String) where
  file : SourceFile
  file_mem : file ∈ files
  module_eq : file.module = some module
  heading : Heading
  name_eq : heading.name = name
  body : List Expr
  function_mem : (Item.function heading body).Among file.items
  commented : Commented file.source.toList doc.toList heading
  /-- No other function of the module has the name. -/
  sole : ∀ h, .function (some module) h ∈ Index.ofFiles files → h.name = name → h = handlerOf file heading
  call : Axum.RouteCall
  call_mem : call ∈ (Axum.routeSites file.module).items {} file.items
  single : call.single? = some (url, verb, ⟨none, name⟩)
  router : String
  function_eq : call.function = some router
  rules_eq : call.rules = []
  unnested : ∀ n ∈ Axum.nestingsOf files, Axum.calledFunction? n.router ≠ some router

/-- The application of a host that registers one function with a docstring, in a group of routes without a prefix. -/
def hosted (module name doc url verb : String) : Application :=
  .ofRegistrations [.blueprintRoute module "" url [verb] { name, doc := some doc }]

/-- The route that a host adds for a function. -/
def hostedRoute (module name url verb : String) : Route := ⟨url, [upperMethod verb], module ++ "." ++ name⟩

/-- What the source registers for a function. -/
def listedRoute (module name url verb : String) : FoundRoute := ⟨url, [upperMethod verb], .function name, some module⟩

section
variable {files : List SourceFile} {frameworks : List Framework} {module name doc url verb : String}

theorem routes_hosted : (hosted module name doc url verb).routes = [hostedRoute module name url verb] := by
  have hrule : Application.blueprintRule "" url = url := by
    rw [Application.blueprintRule, show mapped (dropEndWhile (· == '/')) "" = "" by decide, String.empty_append]
  rw [hosted, Application.routes_ofRegistrations]
  change [(⟨Application.blueprintRule "" url, _, _⟩ : Route)] = _
  rw [hrule]
  rfl

theorem handler_hosted : (hosted module name doc url verb).handler (hostedRoute module name url verb).endpoint =
    some { name, doc := some doc } := by
  rw [hosted, Application.handler_ofRegistrations]
  exact List.lookup_cons_self

namespace Listing
variable (l : Listing files module name doc url verb)
include l

theorem listedRoute_mem (hread : ∀ f ∈ files, f.IsRead) (haxum : .axum ∈ frameworks) (hverb : (verb? verb).isSome) :
    listedRoute module name url verb ∈ frameworks.flatMap fun framework => framework.routes files := by
  have hupper : verb? verb = some (upperMethod verb) := by
    rw [verb?] at hverb ⊢
    split at hverb
    · rename_i hmem
      rw [if_pos hmem]
      rfl
    · cases hverb
  have hmodule : l.call.module = some module :=
    ((Axum.finds_routeSites IsWord _).items {} _ (hread _ l.file_mem).allNamed _ l.call_mem).trans l.module_eq
  have hcall : l.call ∈ Axum.routeCalls files := List.mem_flatMap.mpr ⟨l.file, l.file_mem, l.call_mem⟩
  refine List.mem_flatMap.mpr ⟨.axum, haxum, ?_⟩
  change _ ∈ Axum.routes files
  rw [Axum.routes_eq]
  refine List.mem_flatMap.mpr ⟨l.call, hcall, ?_⟩
  rw [l.function_eq, Axum.pathOf_of_unnested l.unnested, Axum.registered_of_single? l.single hupper l.rules_eq, hmodule]
  exact List.mem_singleton_self _

/-- The route leads to the function behind the comments. -/
theorem selected_listedRoute :
    (Index.ofFiles files).selected (listedRoute module name url verb) = (some module, handlerOf l.file l.heading) := by
  have hmem : .function (some module) (handlerOf l.file l.heading) ∈ Index.ofFiles files :=
    List.mem_flatMap.mpr ⟨l.file, l.file_mem, mem_definitions l.module_eq l.function_mem⟩
  refine Index.selected_of_sole hmem (fun h hh hname => l.sole h hh (hname.trans l.name_eq)) rfl ?_
  exact l.name_eq.symm

theorem endpointOf_listedRoute : (Index.ofFiles files).endpointOf (listedRoute module name url verb) =
    (hostedRoute module name url verb).endpoint := by
  rw [Index.endpointOf, l.selected_listedRoute]
  exact congrArg (module ++ "." ++ ·) l.name_eq

/-- The application of the project has the route that a host would add. -/
theorem hostedRoute_mem (hread : ∀ f ∈ files, f.IsRead) (haxum : .axum ∈ frameworks) (hverb : (verb? verb).isSome) :
    hostedRoute module name url verb ∈ (application files frameworks).routes := by
  have hcall : functionCall? (Index.ofFiles files) (listedRoute module name url verb) =
      some (.routeWithEndpoint _ _ ((Index.ofFiles files).endpointOf (listedRoute module name url verb)) _) :=
    functionCall?_of_function rfl
  rw [l.endpointOf_listedRoute] at hcall
  have hmem : listedRoute module name url verb ∈ foundRoutes files frameworks :=
    List.mem_append_left _ (l.listedRoute_mem hread haxum hverb)
  refine Application.mem_routes_of_mem (List.mem_append_left _ (List.mem_filterMap.mpr ⟨_, hmem, hcall⟩)) ?_
  refine List.mem_singleton.mpr ?_
  change hostedRoute module name url verb = ⟨url, [upperMethod (upperMethod verb)], module ++ "." ++ name⟩
  rw [upperMethod_upperMethod]
  rfl

/-- The handler of the route is the function behind the comments. -/
theorem handler_hostedRoute (hread : ∀ f ∈ files, f.IsRead) (haxum : .axum ∈ frameworks) (hverb : (verb? verb).isSome) :
    (application files frameworks).handler (hostedRoute module name url verb).endpoint =
      some (handlerOf l.file l.heading) := by
  have hrouting := toFunction_of_mem_frameworks hread frameworks
  have hhandler :
      (application files frameworks).handler ((Index.ofFiles files).endpointOf (listedRoute module name url verb)) =
        some ((Index.ofFiles files).selected (listedRoute module name url verb)).2 :=
    handler_registrations (fun r hr => (hrouting r hr).target)
      (target_of_mem_resourceRegistrations fun f hf => (hread f hf).allNamed)
      (fun r hr => (hrouting r hr).name.dot_notMem) (l.listedRoute_mem hread haxum hverb)
  rwa [l.endpointOf_listedRoute, l.selected_listedRoute] at hhandler

end Listing

end

/-- Attributes that are texts, taken apart. -/
def texts? : List Attribute → Option (List (Path × String))
  | [] => some []
  | ⟨path, .text value⟩ :: rest => (texts? rest).map ((path, value) :: ·)
  | _ => none

theorem eq_of_texts? {attributes : List Attribute} {texts : List (Path × String)} (h : texts? attributes = some texts) :
    attributes = texts.map fun (path, value) => ⟨path, .text value⟩ := by
  fun_induction texts? attributes generalizing texts with
  | case1 =>
    obtain rfl := Option.some.inj h
    rfl
  | case2 path value rest ih =>
    obtain ⟨later, hlater, rfl⟩ := Option.map_eq_some_iff.mp h
    rw [ih hlater]
    rfl
  | case3 => cases h

/-- A function without statements and with attributes that are texts, taken apart. -/
def outline? : Item → Option (String × List (Path × String) × Nat × Nat)
  | .function ⟨name, attributes, first, last⟩ [] => (texts? attributes).map fun texts => (name, texts, first, last)
  | _ => none

theorem eq_of_outline? {i : Item} {name : String} {texts : List (Path × String)} {first last : Nat}
    (h : outline? i = some (name, texts, first, last)) :
    i = .function ⟨name, texts.map fun (path, value) => ⟨path, .text value⟩, first, last⟩ [] := by
  fun_cases outline? i with
  | case1 name attributes first last =>
    obtain ⟨texts', htexts, heq⟩ := Option.map_eq_some_iff.mp h
    cases heq
    rw [eq_of_texts? htexts]
  | case2 i hother =>
    rw [outline?] at h
    · cases h
    · exact hother

/-- A project whose only file declares a module with a documented function, a router that registers it, and a further
route. -/
def membersText : String :=
  "/// Lists users.\n/// \n///   \"Active\" // first\n/// @@@\n/// - id\n/// @@@\nfn list() \x7b\x7d\n" ++
    "fn app() \x7b Router::new().route(\"/users\", get(list)).route(\"/\", get(home)) \x7d"

def members : List SourceFile := Axum.filesOf [(some "users", membersText)]

def listDoc : String := "Lists users.\n\n  \"Active\" // first\n@@@\n- id\n@@@"

def listTexts : List (Path × String) :=
  (listDoc.toList.splitOn '\n').map fun line => (⟨false, [⟨"doc", true⟩]⟩, String.ofList (' ' :: line))

def listHeading : Heading := ⟨"list", listTexts.map fun (path, value) => ⟨path, .text value⟩, 1, 7⟩

theorem eq_listHeading {i : Item} (h : outline? i = some ("list", listTexts, 1, 7)) : i = .function listHeading [] :=
  eq_of_outline? h

def commentedList : Commented membersText.toList listDoc.toList listHeading where
  ahead := []
  indent := []
  own := "fn list() \x7b\x7d".toList
  behind := "\nfn app() \x7b Router::new().route(\"/users\", get(list)).route(\"/\", get(home)) \x7d".toList
  text_eq := by decide +kernel
  indent_blank := nofun
  read := listHeading
  body := []
  depth := 16
  item_eq := by
    have houtline : ((treesFrom? 1 (commentsOf [] (listDoc.toList.splitOn '\n') ++ "fn list() \x7b\x7d".toList)).bind
        (item (grammar 16)).whole?).bind outline? = some ("list", listTexts, 1, 7) := by
      decide +kernel
    obtain ⟨i, hi, hi'⟩ := Option.bind_eq_some_iff.mp houtline
    exact hi.trans (congrArg some (eq_listHeading hi'))
  earlier := []
  first := 1
  heading_eq := rfl
  only := by decide +kernel

set_option synthInstance.maxSize 1000 in
theorem read_members : (members.map fun f => (f.module, f.source)) = [(some "users", membersText)] ∧
    (members.flatMap fun f => (f.items.head?.bind outline?).toList) = [("list", listTexts, 1, 7)] ∧
    (members.flatMap fun f => ((Axum.routeSites f.module).items {} f.items).map fun r =>
      (r.single?, r.function, r.rules)) =
      [(some ("/users", "get", ⟨none, "list"⟩), some "app", []), (some ("/", "get", ⟨none, "home"⟩), some "app", [])] ∧
    (Axum.nestingsOf members).isEmpty ∧ ((Index.ofFiles members).functions "list").length = 1 := by
  decide +kernel

theorem alone_list : ∀ r ∈ (application members [.axum]).source.routes.erase (hostedRoute "users" "list" "/users" "get"),
    ∀ c ∈ r.classify { member := ["users"] } (application members [.axum]).source,
      ¬ (c.group = "Users" ∧ c.name = "List") := by
  decide +kernel

theorem listing_members : Nonempty (Listing members "users" "list" listDoc "/users" "get") := by
  obtain ⟨hfiles, houtlines, hcalls, hnestings, hlisted⟩ := read_members
  obtain ⟨file, hmembers, hfile⟩ := List.map_eq_singleton_iff.mp hfiles
  obtain ⟨hmodule, hsource⟩ := Prod.mk.inj hfile
  have hmem : file ∈ members := hmembers ▸ List.mem_singleton_self file
  rw [hmembers, List.flatMap_singleton] at houtlines hcalls
  have hfunction : Item.function listHeading [] ∈ file.items := by
    have houtline := Option.mem_toList.mp (houtlines ▸ List.mem_singleton_self _)
    obtain ⟨i, hi, houtline⟩ := Option.bind_eq_some_iff.mp houtline
    exact eq_listHeading houtline ▸ List.mem_of_head? hi
  have hdefined : .function (some "users") (handlerOf file listHeading) ∈ Index.ofFiles members :=
    List.mem_flatMap.mpr ⟨file, hmem, mem_definitions hmodule (.here hfunction)⟩
  obtain ⟨only, honly⟩ := List.length_eq_one_iff.mp hlisted
  have hsole {h : Handler} (hh : .function (some "users") h ∈ Index.ofFiles members) (hname : h.name = "list") :
      (some "users", h) = only :=
    List.mem_singleton.mp (honly ▸ Index.mem_functions_iff.mpr ⟨hh, hname⟩)
  obtain ⟨call, later, hsites, hcall, -⟩ := List.map_eq_cons_iff.mp hcalls
  obtain ⟨hsingle, hrest⟩ := Prod.mk.inj hcall
  obtain ⟨hrouter, hrules⟩ := Prod.mk.inj hrest
  refine ⟨{
    file
    file_mem := hmem
    module_eq := hmodule
    heading := listHeading
    name_eq := rfl
    body := []
    function_mem := .here hfunction
    commented := hsource ▸ commentedList
    sole := fun h hh hname => (Prod.mk.inj ((hsole hh hname).trans (hsole hdefined rfl).symm)).2
    call
    call_mem := hsites ▸ List.mem_cons_self
    single := hsingle
    router := "app"
    function_eq := hrouter
    rules_eq := hrules
    unnested := fun n hn => absurd hn ?_ }⟩
  rw [List.isEmpty_iff.mp hnestings]
  exact List.not_mem_nil

end Project
end ApiHandbook
