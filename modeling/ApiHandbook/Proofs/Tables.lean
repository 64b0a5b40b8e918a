import ApiHandbook.Proofs.History
import ApiHandbook.Proofs.Rules
import ApiHandbook.Proofs.Visibility

/-! The routes, handlers and resources of an application after any registration calls. Routes are only added, and what an
endpoint or a name was first given stays, so that every route has its handler and every dispatcher its resource. -/
namespace ApiHandbook
open Text

/-- The routes of an entry's group and name that have a handler are among those that make the entry. -/
theorem Opens.mem_of_isSome {routes : List ClassifiedRoute} {group name : String} {first : ClassifiedRoute}
    {handler : Handler} {later : List ClassifiedRoute} (h : Opens routes group name first handler later)
    {r : ClassifiedRoute} (hr : r ∈ routes) (hg : r.group = group) (hn : r.name = name) (hs : r.handler.isSome) :
    r ∈ first :: later := by
  obtain ⟨before, after, rfl, hbefore, rfl⟩ := h.split
  rcases List.mem_append.mp hr with hmem | hmem
  · rw [hbefore r hmem hg hn] at hs
    cases hs
  · rw [List.mem_cons, List.mem_filter, decide_eq_true_eq]
    exact (List.mem_cons.mp hmem).imp_right fun hafter => ⟨hafter, hg, hn⟩

namespace Application

/-- What the tables of an application hold after a sequence of registration calls. -/
structure Records (calls : List Registration) (app : Application) : Prop where
  routes_eq : app.routes = calls.flatMap Registration.routes
  methods_eq : ∀ r ∈ app.routes, ∀ method ∈ r.methods, upperMethod method = method
  handler_isSome : ∀ r ∈ app.routes, (app.handler r.endpoint).isSome
  /-- The handler of an endpoint is the one of the first call that supplies any. -/
  handler_iff : ∀ endpoint handler, app.handler endpoint = some handler ↔
    ∃ before call after, calls = before ++ call :: after ∧ call.supplied = (endpoint, handler) ∧
      ∀ earlier ∈ before, earlier.supplied.1 ≠ endpoint
  /-- The resource of a name is the first one that is registered under it. -/
  resource_iff : ∀ name resource, app.resource name = some resource ↔
    ∃ before urls after, calls = before ++ .addResource resource urls :: after ∧ resource.name = name ∧
      ∀ earlier otherUrls, .addResource earlier otherUrls ∈ before → earlier.name ≠ name
  /-- The dispatcher of a registered resource names a class that is found. -/
  dispatcher_found : ∀ resource urls, .addResource resource urls ∈ calls →
    ∃ stored, (dispatcher resource).viewClass = some stored.name ∧ app.resource stored.name = some stored

variable (calls : List Registration)

theorem handler_eq_some_iff (endpoint : String) (handler : Handler) :
    (ofRegistrations calls).handler endpoint = some handler ↔
      ∃ before call after, calls = before ++ call :: after ∧ call.supplied = (endpoint, handler) ∧
        ∀ earlier ∈ before, earlier.supplied.1 ≠ endpoint := by
  rw [handler_ofRegistrations, List.lookup_eq_some_iff]
  constructor
  · rintro ⟨front, back, hsplit, hfront⟩
    obtain ⟨before, rest, rfl, rfl, hrest⟩ := List.map_eq_append_iff.mp hsplit
    obtain ⟨call, after, rfl, hcall, -⟩ := List.map_eq_cons_iff.mp hrest
    refine ⟨before, call, after, rfl, hcall, fun earlier hearlier => ?_⟩
    exact (bne_iff_ne.mp (hfront _ (List.mem_map_of_mem hearlier))).symm
  · rintro ⟨before, call, after, rfl, hcall, hbefore⟩
    refine ⟨before.map Registration.supplied, after.map Registration.supplied, ?_, ?_⟩
    · rw [List.map_append, List.map_cons, hcall]
    · rw [List.forall_mem_map]
      exact fun earlier hearlier => bne_iff_ne.mpr (hbefore earlier hearlier).symm

theorem resource?_eq_some_iff {call : Registration} {name : String} {resource : Resource} :
    call.resource? = some (name, resource) ↔ ∃ urls, call = .addResource resource urls ∧ resource.name = name := by
  cases call with
  | addResource other urls =>
    rw [Registration.resource?, Option.some_inj, Prod.mk_inj]
    constructor
    · rintro ⟨rfl, rfl⟩
      exact ⟨urls, rfl, rfl⟩
    · rintro ⟨_, heq, rfl⟩
      obtain ⟨rfl, -⟩ := Registration.addResource.inj heq
      exact ⟨rfl, rfl⟩
  | _ => simp [Registration.resource?]

theorem resource_eq_some_iff (name : String) (resource : Resource) :
    (ofRegistrations calls).resource name = some resource ↔
      ∃ before urls after, calls = before ++ .addResource resource urls :: after ∧ resource.name = name ∧
        ∀ earlier otherUrls, .addResource earlier otherUrls ∈ before → earlier.name ≠ name := by
  rw [resource_ofRegistrations, List.lookup_eq_some_iff]
  constructor
  · rintro ⟨front, back, hsplit, hfront⟩
    obtain ⟨before, rest, rfl, rfl, hrest⟩ := List.filterMap_eq_append_iff.mp hsplit
    obtain ⟨skipped, call, after, rfl, hskipped, hcall, -⟩ := List.filterMap_eq_cons_iff.mp hrest
    obtain ⟨urls, rfl, hname⟩ := resource?_eq_some_iff.mp hcall
    refine ⟨before ++ skipped, urls, after, (List.append_assoc ..).symm, hname, fun earlier otherUrls hearlier => ?_⟩
    rcases List.mem_append.mp hearlier with hmem | hmem
    · exact (bne_iff_ne.mp (hfront (earlier.name, earlier) (List.mem_filterMap.mpr ⟨_, hmem, rfl⟩))).symm
    · exact absurd (hskipped _ hmem) (Option.some_ne_none _)
  · rintro ⟨before, urls, after, rfl, rfl, hbefore⟩
    refine ⟨before.filterMap Registration.resource?, after.filterMap Registration.resource?, ?_, ?_⟩
    · rw [List.filterMap_append, List.filterMap_cons]
      rfl
    · rintro ⟨other, earlier⟩ hmem
      obtain ⟨call, hcall, hresource⟩ := List.mem_filterMap.mp hmem
      obtain ⟨otherUrls, rfl, rfl⟩ := resource?_eq_some_iff.mp hresource
      exact bne_iff_ne.mpr (hbefore earlier otherUrls hcall).symm

theorem exists_resource_of_mem {resource : Resource} {urls : List String} (h : .addResource resource urls ∈ calls) :
    ∃ stored, stored.name = resource.name ∧ (ofRegistrations calls).resource resource.name = some stored := by
  obtain ⟨stored, hstored⟩ : ∃ stored, (ofRegistrations calls).resource resource.name = some stored := by
    rw [resource_ofRegistrations, ← Option.isSome_iff_exists, List.lookup_isSome_iff]
    exact ⟨_, List.mem_filterMap.mpr ⟨_, h, rfl⟩, beq_self_eq_true _⟩
  exact ⟨stored, (ofRegistrations_wellFormed calls).resource_name _ _ hstored, hstored⟩

/-- Further calls leave the handler of an endpoint as it is. -/
theorem handler_append {endpoint : String} {handler : Handler}
    (h : (ofRegistrations calls).handler endpoint = some handler) (more : List Registration) :
    (ofRegistrations (calls ++ more)).handler endpoint = some handler := by
  rw [handler_ofRegistrations] at h ⊢
  rw [List.map_append, List.lookup_append, h, Option.some_or]

/-- Further calls leave the resource of a name as it is. -/
theorem resource_append {name : String} {resource : Resource}
    (h : (ofRegistrations calls).resource name = some resource) (more : List Registration) :
    (ofRegistrations (calls ++ more)).resource name = some resource := by
  rw [resource_ofRegistrations] at h ⊢
  rw [List.filterMap_append, List.lookup_append, h, Option.some_or]

theorem ofRegistrations_records : Records calls (ofRegistrations calls) where
  routes_eq := routes_ofRegistrations calls
  methods_eq := (ofRegistrations_wellFormed calls).upperMethod_eq
  handler_isSome := (ofRegistrations_wellFormed calls).handler_isSome
  handler_iff := handler_eq_some_iff calls
  resource_iff := resource_eq_some_iff calls
  dispatcher_found resource urls h := by
    obtain ⟨stored, hname, hstored⟩ := exists_resource_of_mem calls h
    exact ⟨stored, by rw [hname]; rfl, by rwa [hname]⟩

/-- The rule of a route in a group is the group's prefix, without the slashes at its end, in front of the route's own. -/
theorem blueprintRule_eq (urlPrefix rule : String) :
    ∃ trimmed slashes : String, urlPrefix = trimmed ++ slashes ∧ (∀ c ∈ slashes.toList, c = '/') ∧
      trimmed.toList.getLast? ≠ some '/' ∧ blueprintRule urlPrefix rule = trimmed ++ rule := by
  obtain ⟨slashes, hsplit, hslashes⟩ := exists_dropEndWhile_append (· == '/') urlPrefix.toList
  refine ⟨mapped (dropEndWhile (· == '/')) urlPrefix, String.ofList slashes, ?_, ?_, ?_, rfl⟩
  · apply String.toList_injective
    rwa [String.toList_append, mapped, String.toList_ofList, String.toList_ofList]
  · rw [String.toList_ofList]
    exact fun c hc => eq_of_beq (hslashes c hc)
  · rw [mapped, String.toList_ofList]
    intro hlast
    exact absurd (getLast?_dropEndWhile (· == '/') urlPrefix.toList hlast) (by decide)

/-- A classified route whose handler is known is shown: there is an entry of its group and name with its URLs. -/
theorem exists_isChild_url {settings : Settings} {source : RouteSource} {c : ClassifiedRoute}
    (hc : c ∈ source.classify settings) (hs : c.handler.isSome) :
    ∃ kind e, IsChild (Aggregate.build settings source) c.group c.name kind e ∧
      ∀ w ∈ words c.url.toList, w ∈ words e.url.toList := by
  obtain ⟨kind, e, he⟩ := exists_isChild hc hs
  obtain ⟨first, handler, later, ho, -, rfl⟩ := opens_of_isChild he
  refine ⟨kind, _, he, fun w hw => (mem_words_united w _ _).mpr ⟨c.url, ?_, hw⟩⟩
  have hurl := List.mem_map_of_mem (f := ClassifiedRoute.url) (ho.mem_of_isSome hc rfl rfl hs)
  rwa [List.map_cons] at hurl

/-- A route that is classified as a plain handler has that handler. -/
theorem handler_isSome_of_api {settings : Settings} {c : ClassifiedRoute}
    (hc : c ∈ (ofRegistrations calls).source.classify settings) (hkind : c.kind = .api) : c.handler.isSome := by
  rcases mem_classify_cases (ofRegistrations_wellFormed calls) hc with ⟨_, _, handler, heq, -⟩ | ⟨r, _, resource, _, _, _, hcr⟩
  · rw [heq, Option.isSome_some]
  · rw [((mem_classifyResource_iff r resource c).mp hcr).2.2] at hkind
    cases hkind

/-- After any registration calls the tables record the calls: routes are added in the order of the calls, the first handler
of an endpoint and the first resource of a name are there to stay, and dispatchers find their resources. Methods are
recorded in capitals, and the rules of a group behind its prefix. So no route of a plain handler is left out of the
documentation because its handler is missing. -/
theorem tables_record :
    Records calls (ofRegistrations calls) ∧
    (∀ method : String, (upperMethod method).toList.map Char.toNat =
      method.toList.map fun c => if 'a' ≤ c ∧ c ≤ 'z' then c.toNat - 32 else c.toNat) ∧
    (∀ urlPrefix rule, ∃ trimmed slashes : String, urlPrefix = trimmed ++ slashes ∧ (∀ c ∈ slashes.toList, c = '/') ∧
      trimmed.toList.getLast? ≠ some '/' ∧ blueprintRule urlPrefix rule = trimmed ++ rule) ∧
    (∀ endpoint handler, (ofRegistrations calls).handler endpoint = some handler →
      ∀ more, (ofRegistrations (calls ++ more)).handler endpoint = some handler) ∧
    (∀ name resource, (ofRegistrations calls).resource name = some resource →
      ∀ more, (ofRegistrations (calls ++ more)).resource name = some resource) ∧
    ∀ settings, ∀ c ∈ (ofRegistrations calls).source.classify settings, c.kind = .api → c.handler.isSome ∧
      ∃ kind e, IsChild (Aggregate.build settings (ofRegistrations calls).source) c.group c.name kind e ∧
        ∀ w ∈ words c.url.toList, w ∈ words e.url.toList := by
  refine ⟨ofRegistrations_records calls, map_toNat_upperMethod, blueprintRule_eq, fun _ _ h => handler_append calls h,
    fun _ _ h => resource_append calls h, fun settings c hc hkind => ?_⟩
  have hhandler := handler_isSome_of_api calls hc hkind
  exact ⟨hhandler, exists_isChild_url hc hhandler⟩

end Application
end ApiHandbook
