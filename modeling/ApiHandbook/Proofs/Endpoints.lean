import ApiHandbook.Proofs.Extraction
import ApiHandbook.Proofs.History
import ApiHandbook.Proofs.Naming.Finding
import ApiHandbook.Proofs.Naming.Item

/-! The application of a project against the registrations found in it. An endpoint is put together from the module and
the name of a definition, and taken apart again at its last dot, as no name holds one: routes that share an endpoint have
selected the same definition, which is why the first of them may leave its handler for all. -/
namespace ApiHandbook.Project
open Code

namespace Index

/-- The definition that a route selects, with its module; without a function of the name, an undocumented one in the
route's module. -/
def selected (index : Index) (r : FoundRoute) : Option String × Handler :=
  match index.function? r.module r.target.name with
  | some found => found
  | none => (r.module, { name := r.target.name })

/-- The endpoint of the definition that a route selects. -/
def endpointOf (index : Index) (r : FoundRoute) : String :=
  functionEndpoint (index.selected r).1 (index.selected r).2.name

/-- The resource of a name; one that no implementation is found for binds no methods. -/
def resourceOf (index : Index) (name : String) : Resource := (index.resource? name).getD { name }

/-! Selection of definitions -/

section
variable {index : Index} {module : Option String} {name : String}

theorem name_of_mem_functions {c : Option String × Handler} (h : c ∈ index.functions name) : c.2.name = name := by
  obtain ⟨d, -, hd⟩ := List.mem_filterMap.mp h
  split at hd
  · rw [Option.ite_none_right_eq_some] at hd
    obtain ⟨hname, heq⟩ := hd
    exact Option.some.inj heq ▸ hname
  · cases hd

theorem function?_eq : index.function? module name =
    ((index.functions name).find? fun c => c.1 = module).or (index.functions name).head? :=
  Option.or_eq_orElse.symm

theorem mem_functions_of_function? {c : Option String × Handler} (h : index.function? module name = some c) :
    c ∈ index.functions name := by
  rw [function?_eq] at h
  rcases Option.or_eq_some_iff.mp h with h | ⟨-, h⟩
  · exact List.mem_of_find?_eq_some h
  · exact List.mem_of_head? h

/-- What is selected is the first definition of its own module, whatever module it was looked up from. -/
theorem find?_of_function? {c : Option String × Handler} (h : index.function? module name = some c) :
    (index.functions name).find? (fun d => d.1 = c.1) = some c := by
  rw [function?_eq] at h
  rcases Option.or_eq_some_iff.mp h with h | ⟨-, h⟩
  · have hmodule : c.1 = module := by simpa using List.find?_some h
    rwa [hmodule]
  · obtain ⟨rest, hrest⟩ := List.head?_eq_some_iff.mp h
    rw [hrest, List.find?_cons_of_pos (by simp)]

theorem functions_eq_nil_of_function? (h : index.function? module name = none) : index.functions name = [] := by
  rw [function?_eq, Option.or_eq_none_iff] at h
  exact List.head?_eq_none_iff.mp h.2

end

theorem selected_name (index : Index) (r : FoundRoute) : (index.selected r).2.name = r.target.name := by
  rw [selected]
  split
  · rename_i found hfound
    exact name_of_mem_functions (mem_functions_of_function? hfound)
  · rfl

/-- Routes that select definitions of one name in one module select the same definition. -/
theorem selected_eq {index : Index} {r r' : FoundRoute} (hname : r.target.name = r'.target.name)
    (hmodule : (index.selected r).1 = (index.selected r').1) : index.selected r = index.selected r' := by
  rw [selected, selected, hname] at hmodule ⊢
  cases h : index.function? r.module r'.target.name with
  | none =>
    have hnone : index.function? r'.module r'.target.name = none := by
      rw [function?_eq, functions_eq_nil_of_function? h]
      rfl
    simp only [h, hnone] at hmodule ⊢
    rw [hmodule]
  | some c =>
    cases h' : index.function? r'.module r'.target.name with
    | none =>
      have hmem := mem_functions_of_function? h
      rw [functions_eq_nil_of_function? h'] at hmem
      cases hmem
    | some c' =>
      simp only [h, h'] at hmodule ⊢
      have hfound := find?_of_function? h
      rw [hmodule, find?_of_function? h'] at hfound
      exact (Option.some.inj hfound).symm

end Index

theorem append_cons_inj {α : Type} {a : α} {x x' z z' : List α} (hz : a ∉ z) (hz' : a ∉ z')
    (h : x ++ a :: z = x' ++ a :: z') : x = x' ∧ z = z' := by
  rcases List.append_eq_append_iff.mp h with ⟨between, rfl, hrest⟩ | ⟨between, rfl, hrest⟩
  · cases between with
    | nil => exact ⟨(List.append_nil x).symm, (List.cons.inj hrest).2⟩
    | cons b between => exact absurd ((List.cons.inj hrest).2 ▸ List.mem_append_right _ List.mem_cons_self) hz
  · cases between with
    | nil => exact ⟨List.append_nil x', ((List.cons.inj hrest).2).symm⟩
    | cons b between => exact absurd ((List.cons.inj hrest).2 ▸ List.mem_append_right _ List.mem_cons_self) hz'

/-- The module and the name can be read off an endpoint. -/
theorem functionEndpoint_inj {module module' : Option String} {name name' : String} (hname : '.' ∉ name.toList)
    (hname' : '.' ∉ name'.toList) (h : functionEndpoint module name = functionEndpoint module' name') :
    module = module' ∧ name = name' := by
  have hdot (m n : String) : (m ++ "." ++ n).toList = m.toList ++ '.' :: n.toList := by simp
  have hlist := congrArg String.toList h
  cases module with
  | none =>
    cases module' with
    | none => exact ⟨rfl, h⟩
    | some m' =>
      rw [functionEndpoint, functionEndpoint, hdot] at hlist
      exact absurd (hlist ▸ List.mem_append_right _ List.mem_cons_self) hname
  | some m =>
    cases module' with
    | none =>
      rw [functionEndpoint, functionEndpoint, hdot] at hlist
      exact absurd (hlist ▸ List.mem_append_right _ List.mem_cons_self) hname'
    | some m' =>
      rw [functionEndpoint, functionEndpoint, hdot, hdot] at hlist
      obtain ⟨hm, hn⟩ := append_cons_inj hname hname' hlist
      exact ⟨congrArg some (String.toList_inj.mp hm), String.toList_inj.mp hn⟩

/-- Routes that share an endpoint have selected the same definition. -/
theorem Index.selected_eq_of_endpointOf {index : Index} {r r' : FoundRoute} (hr : '.' ∉ r.target.name.toList)
    (hr' : '.' ∉ r'.target.name.toList) (h : index.endpointOf r = index.endpointOf r') :
    index.selected r = index.selected r' := by
  rw [endpointOf, endpointOf, selected_name, selected_name] at h
  obtain ⟨hmodule, hname⟩ := functionEndpoint_inj hr hr' h
  exact selected_eq hname hmodule

/-! Registration calls -/

section
variable {index : Index}

theorem functionCall?_of_function {r : FoundRoute} (h : r.target = .function r.target.name) :
    functionCall? index r = some (.routeWithEndpoint r.path r.methods (index.endpointOf r) (index.selected r).2) := by
  have hselected : (index.function? r.module r.target.name).getD (r.module, { name := r.target.name }) = index.selected r := by
    rw [Index.selected]
    cases index.function? r.module r.target.name <;> rfl
  rw [functionCall?, h]
  dsimp only
  rw [hselected, Index.endpointOf, index.selected_name]

theorem functionCall?_of_resource {r : FoundRoute} (h : r.target = .resource r.target.name) :
    functionCall? index r = none := by
  rw [functionCall?, h]

theorem filterMap_functionCall? {functions resources : List FoundRoute}
    (hfunctions : ∀ r ∈ functions, r.target = .function r.target.name)
    (hresources : ∀ r ∈ resources, r.target = .resource r.target.name) :
    (functions ++ resources).filterMap (functionCall? index) =
      functions.map fun r => .routeWithEndpoint r.path r.methods (index.endpointOf r) (index.selected r).2 := by
  have hnone : resources.filterMap (functionCall? index) = [] :=
    List.filterMap_eq_nil_iff.mpr fun r hr => functionCall?_of_resource (hresources r hr)
  rw [List.filterMap_append, hnone, List.append_nil, ← List.filterMap_eq_map]
  exact List.filterMap_congr fun r hr => functionCall?_of_function (hfunctions r hr)

theorem distinct_eq (keys : List String) : distinct keys = keys.eraseDups := by
  rw [distinct, foldl_missing, List.nil_append]
  exact congrArg List.eraseDups (List.removeAll_nil)

theorem map_upperMethod {methods : List String} (h : ∀ verb ∈ methods, upperMethod verb = verb) :
    methods.map upperMethod = methods :=
  (List.map_congr_left h).trans (List.map_id _)

theorem upperMethod_of_mem_methods (bindings : List (String × Handler)) (r : Resource)
    (hr : ∀ verb ∈ r.methods, upperMethod verb = verb) :
    ∀ verb ∈ (bindings.foldl (fun r (verb, handler) => r.method verb handler) r).methods, upperMethod verb = verb := by
  induction bindings generalizing r with
  | nil => exact hr
  | cons binding bindings ih =>
    refine ih _ fun verb hverb => ?_
    change verb ∈ (put (upperMethod binding.1) binding.2 r.bindings).map Prod.fst at hverb
    rw [keys_put] at hverb
    split at hverb
    · exact hr verb hverb
    · rcases List.mem_append.mp hverb with hverb | hverb
      · exact hr verb hverb
      · exact List.mem_singleton.mp hverb ▸ Text.upperMethod_upperMethod binding.1

theorem Index.upperMethod_of_mem_resourceOf (name : String) :
    ∀ verb ∈ (index.resourceOf name).methods, upperMethod verb = verb := by
  rw [Index.resourceOf, Index.resource?]
  cases index.bindings? name with
  | none => exact nofun
  | some bindings => exact upperMethod_of_mem_methods bindings _ nofun

/-- The routes of the resource calls stand resource by resource, in the order of their first registrations. -/
theorem routes_resourceCalls {functions resources : List FoundRoute}
    (hfunctions : ∀ r ∈ functions, r.target = .function r.target.name)
    (hresources : ∀ r ∈ resources, r.target = .resource r.target.name) :
    (resourceCalls index (functions ++ resources)).flatMap Registration.routes =
      (resources.map fun r => r.target.name).eraseDups.flatMap fun name =>
        (resources.filter fun r => r.target.name = name).map fun r =>
          ⟨r.path, (index.resourceOf name).methods, (index.resourceOf name).endpoint⟩ := by
  have hnone : functions.filterMap resourceUrl? = [] := by
    rw [List.filterMap_eq_nil_iff]
    intro r hr
    rw [resourceUrl?, hfunctions r hr]
  have hurls : resources.filterMap resourceUrl? = resources.map fun r => (r.target.name, r.path) := by
    rw [← List.filterMap_eq_map]
    refine List.filterMap_congr fun r hr => ?_
    rw [resourceUrl?, hresources r hr]
    rfl
  rw [resourceCalls, List.filterMap_append, hnone, hurls, List.nil_append, distinct_eq, List.flatMap_map, List.map_map]
  refine List.flatMap_congr fun name _ => ?_
  have hmethods := map_upperMethod (index.upperMethod_of_mem_resourceOf name)
  change ((((resources.map fun r => (r.target.name, r.path)).filter fun u => u.1 = name).map Prod.snd).map fun url =>
    (⟨url, (index.resourceOf name).methods.map upperMethod, (index.resourceOf name).endpoint⟩ : Route)) = _
  rw [hmethods, List.filter_map, List.map_map, List.map_map]
  rfl

/-- Looking up the key of an item finds the item's value, where items that share a key share their value. -/
theorem lookup_map_of_mem {α β : Type} {items : List α} (key : α → String) (value : α → β)
    (h : ∀ a ∈ items, ∀ b ∈ items, key a = key b → value a = value b) {b : α} (hb : b ∈ items) :
    (items.map fun a => (key a, value a)).lookup (key b) = some (value b) := by
  induction items with
  | nil => cases hb
  | cons a items ih =>
    rw [List.map_cons, lookup_cons_eq]
    by_cases hkey : key b = key a
    · rw [if_pos hkey, h b hb a List.mem_cons_self hkey]
    · rw [if_neg hkey]
      have hb' : b ∈ items := (List.mem_cons.mp hb).resolve_left fun heq => hkey (congrArg key heq)
      exact ih (fun a ha b hb => h a (.tail _ ha) b (.tail _ hb)) hb'

/-- The handlers that function calls supply under one endpoint are the same, and stand before those of resources. -/
theorem handler_registrations {functions resources : List FoundRoute}
    (hfunctions : ∀ r ∈ functions, r.target = .function r.target.name)
    (hresources : ∀ r ∈ resources, r.target = .resource r.target.name)
    (hnames : ∀ r ∈ functions, '.' ∉ r.target.name.toList) {r : FoundRoute} (hr : r ∈ functions) :
    (Application.ofRegistrations (registrations index (functions ++ resources))).handler (index.endpointOf r) =
      some (index.selected r).2 := by
  have hlookup := lookup_map_of_mem index.endpointOf (fun r => (index.selected r).2)
    (fun a ha b hb h => congrArg Prod.snd (Index.selected_eq_of_endpointOf (hnames a ha) (hnames b hb) h)) hr
  rw [Application.handler_ofRegistrations, registrations, filterMap_functionCall? hfunctions hresources, List.map_append,
    List.lookup_append, List.map_map]
  change ((functions.map fun r => (index.endpointOf r, (index.selected r).2)).lookup (index.endpointOf r)).or _ = _
  rw [hlookup, Option.some_or]

end

theorem SourceFile.ofText_eq_ok_iff {path : String} {module : Option String} {source : String} {f : SourceFile} :
    SourceFile.ofText path module source = .ok f ↔
      ∃ items, items? source.toList = some items ∧ f = ⟨path, module, source, items⟩ := by
  -- The equation of `ofText` takes long to make, as the reader of items is unfolded for it.
  delta ofText
  cases items? source.toList with
  | none => exact ⟨nofun, fun ⟨_, h, _⟩ => nomatch h⟩
  | some items =>
    constructor
    · rintro ⟨⟩
      exact ⟨items, rfl, rfl⟩
    · rintro ⟨_, ⟨⟩, rfl⟩
      rfl

/-- Whether a file was read from a text. -/
def SourceFile.IsRead (f : SourceFile) : Prop := ∃ path module source, SourceFile.ofText path module source = .ok f

theorem SourceFile.IsRead.of_toOption {path : String} {module : Option String} {source : String} {f : SourceFile}
    (h : (SourceFile.ofText path module source).toOption = some f) : f.IsRead := by
  cases hread : SourceFile.ofText path module source with
  | ok read =>
    rw [hread] at h
    exact ⟨path, module, source, hread.trans (congrArg _ (Option.some.inj h))⟩
  | error _ =>
    rw [hread] at h
    cases h

theorem SourceFile.IsRead.allNamed {f : SourceFile} (h : f.IsRead) : Item.AllNamed IsWord f.items := by
  obtain ⟨path, module, source, h⟩ := h
  obtain ⟨items, hitems, rfl⟩ := ofText_eq_ok_iff.mp h
  exact allNamed_of_items? hitems

/-- What frameworks register in the files of a project are functions, named by words. -/
theorem toFunction_of_mem_frameworks {files : List SourceFile} (hfiles : ∀ f ∈ files, f.IsRead) (frameworks : List Framework) :
    ∀ r ∈ frameworks.flatMap fun framework => framework.routes files, r.ToFunction IsWord := by
  intro r hr
  obtain ⟨framework, -, hr⟩ := List.mem_flatMap.mp hr
  exact framework.toFunction_of_mem_routes (fun f hf => (hfiles f hf).allNamed) r hr

/-- Whether an application stands for the registrations of functions and of resources, with the definitions in an index:
nothing is lost and nothing made up. -/
structure Represents (app : Application) (index : Index) (functions resources : List FoundRoute) : Prop where
  function : ∀ r ∈ functions, r.target = .function r.target.name
  resource : ∀ r ∈ resources, r.target = .resource r.target.name
  /-- There is one route for each function, and behind them, by resource, one for each URL. -/
  routes : app.routes =
    (functions.map fun r => ⟨r.path, r.methods, index.endpointOf r⟩) ++
    (resources.map fun r => r.target.name).eraseDups.flatMap fun name =>
      (resources.filter fun r => r.target.name = name).map fun r =>
        ⟨r.path, (index.resourceOf name).methods, (index.resourceOf name).endpoint⟩
  /-- The endpoint of a function leads to the definition that its route selects. -/
  handler : ∀ r ∈ functions, app.handler (index.endpointOf r) = some (index.selected r).2

/-- Routes that share an endpoint, a function that is not defined, and a resource behind them. -/
def marketRoot : String :=
  "fn app() \x7b Router::new().route(\"/\", get(list)).route(\"/all\", get(list).post(add)).add_resource(Till, \"/till\") \x7d"

def market : List SourceFile := Axum.filesOf [(none, marketRoot), (some "users", "fn list() \x7b\x7d")]

def marketIndex : Index :=
  [.function none { name := "app", source := some marketRoot },
    .function (some "users") { name := "list", source := some "fn list() \x7b\x7d" }]

def marketFunctions : List FoundRoute :=
  [⟨"/", ["GET"], .function "list", none⟩, ⟨"/all", ["GET"], .function "list", none⟩, ⟨"/all", ["POST"], .function "add", none⟩]

theorem read_market : Index.ofFiles market = marketIndex ∧
    ([Framework.axum].flatMap fun framework => framework.routes market) = marketFunctions ∧
    resourceRegistrations market = [⟨"/till", [], .resource "Till", none⟩] := by
  decide +kernel

end ApiHandbook.Project
