import ApiHandbook.Proofs.History
import ApiHandbook.Proofs.Visibility

/-! Where the URLs of a resource are dispatched to. Endpoints and resource names are taken by the first call that uses
them, so a resource is reached through its own URLs exactly when the endpoint was taken for its name, and the name by a
resource with the same handlers. -/
namespace ApiHandbook
open Text

theorem Resource.handler_congr (resource : Resource) {a b : String} (h : asciiLower a.toList = asciiLower b.toList) :
    resource.handler a = resource.handler b := by
  simp only [Resource.handler, sameIgnoringCase, h]

theorem Resource.handler_isSome (resource : Resource) {verb : String} (h : verb ∈ resource.methods) :
    (resource.handler verb).isSome := by
  obtain ⟨binding, hmem, rfl⟩ := List.mem_map.mp h
  rw [Resource.handler, Option.isSome_map, List.find?_isSome]
  exact ⟨binding, hmem, beq_self_eq_true _⟩

namespace Application

/-- Whether the URLs of a resource are dispatched to it: its endpoint dispatches to its name, a resource of that name
binds all methods that the URLs accept, and each of them is documented with the handler that the resource binds. -/
structure Dispatches (app : Application) (resource : Resource) (urls : List String) : Prop where
  endpoint : ∃ handler, app.handler resource.endpoint = some handler ∧ handler.viewClass = some resource.name
  name : ∃ stored, app.resource resource.name = some stored ∧
    ∀ r ∈ (Registration.addResource resource urls).routes, ∀ verb ∈ r.methods, (stored.handler verb).isSome
  documented : ∀ settings : Settings, settings.restfulExclude = [] →
    ∀ r ∈ (Registration.addResource resource urls).routes, ∀ verb ∈ settings.allowedMethods r.methods,
      ∃ handler, resource.handler verb = some handler ∧ ∃ c ∈ app.source.classify settings, c.kind = .restfulApi ∧
        c.group = resource.name ∧ c.name = verb ∧ c.url = r.rule ∧ c.methods = [verb] ∧ c.handler = some handler

section Registered
variable {calls : List Registration} {resource first : Resource} {urls : List String} {settings : Settings}

/-- A method that a URL of a resource accepts is one that the resource binds, up to letter case. -/
theorem binding_of_mem_methods {r : Route} (hr : r ∈ (Registration.addResource resource urls).routes) {verb : String}
    (hverb : verb ∈ r.methods) : ∃ bound ∈ resource.methods, asciiLower verb.toList = asciiLower bound.toList := by
  obtain ⟨url, -, rfl⟩ := List.mem_map.mp hr
  obtain ⟨bound, hbound, rfl⟩ := List.mem_map.mp hverb
  exact ⟨bound, hbound, asciiLower_upperMethod bound⟩

theorem binding_of_mem_allowedMethods {r : Route} (hr : r ∈ (Registration.addResource resource urls).routes)
    {verb : String} (hverb : verb ∈ settings.allowedMethods r.methods) :
    ∃ bound ∈ resource.methods, asciiLower verb.toList = asciiLower bound.toList := by
  rw [Settings.allowedMethods, List.mem_filter, List.any_eq_true] at hverb
  obtain ⟨-, method, hmethod, hsame⟩ := hverb
  obtain ⟨bound, hbound, heq⟩ := binding_of_mem_methods hr hmethod
  exact ⟨bound, hbound, (eq_of_beq hsame).symm.trans heq⟩

/-- What is documented as a method of a resource has the handler of the first resource of that name. -/
theorem handler_of_mem_classify (hfirst : (ofRegistrations calls).resource first.name = some first)
    {c : ClassifiedRoute} (hc : c ∈ (ofRegistrations calls).source.classify settings) (hkind : c.kind = .restfulApi)
    (hgroup : c.group = first.name) : c.handler = first.handler c.name := by
  rcases mem_classify_cases (ofRegistrations_wellFormed calls) hc with
    ⟨_, _, _, heq, _⟩ | ⟨r, _, stored, hstored, -, -, hclassified⟩
  · rw [heq] at hkind
    cases hkind
  · rw [hgroup, hfirst] at hstored
    obtain rfl := Option.some.inj hstored
    exact congrArg ClassifiedRoute.handler ((mem_classifyResource_iff r first c).mp hclassified).2.2

variable (hcall : .addResource resource urls ∈ calls) (hname : first.name = resource.name)
  (hfirst : (ofRegistrations calls).resource resource.name = some first)
include hcall hname hfirst

theorem dispatches_of_same {handler : Handler} (hhandler : (ofRegistrations calls).handler resource.endpoint = some handler)
    (hview : handler.viewClass = some resource.name)
    (hsame : urls ≠ [] → ∀ verb ∈ resource.methods, first.handler verb = resource.handler verb) :
    (ofRegistrations calls).Dispatches resource urls := by
  have hurls {r : Route} (hr : r ∈ (Registration.addResource resource urls).routes) : urls ≠ [] := by
    obtain ⟨url, hurl, -⟩ := List.mem_map.mp hr
    exact List.ne_nil_of_mem hurl
  refine ⟨⟨handler, hhandler, hview⟩, ⟨first, hfirst, fun r hr verb hverb => ?_⟩,
    fun settings hexclude r hr verb hverb => ?_⟩
  · obtain ⟨bound, hbound, heq⟩ := binding_of_mem_methods hr hverb
    rw [first.handler_congr heq, hsame (hurls hr) bound hbound]
    exact resource.handler_isSome hbound
  · obtain ⟨bound, hbound, heq⟩ := binding_of_mem_allowedMethods hr hverb
    obtain ⟨h, hh⟩ := Option.isSome_iff_exists.mp (resource.handler_isSome hbound)
    have hendpoint : r.endpoint = resource.endpoint := by
      obtain ⟨url, -, rfl⟩ := List.mem_map.mp hr
      rfl
    have hclassify : r.classify settings (ofRegistrations calls).source = r.classifyResource settings first :=
      classify_of_resource (hendpoint ▸ hhandler) hview hfirst
    refine ⟨h, (resource.handler_congr heq).trans hh,
      ⟨.restfulApi, first.name, first.doc, verb, r.rule, [verb], first.handler verb⟩,
      List.mem_flatMap.mpr ⟨r, mem_routes_of_mem hcall hr, ?_⟩, rfl, hname, rfl, rfl, rfl, ?_⟩
    · rw [hclassify, mem_classifyResource_iff, hexclude]
      exact ⟨⟨List.not_mem_nil, List.not_mem_nil⟩, hverb, rfl⟩
    · exact (first.handler_congr heq).trans ((hsame (hurls hr) bound hbound).trans hh)

omit hcall in
theorem same_of_dispatches (h : (ofRegistrations calls).Dispatches resource urls) (hurls : urls ≠ [])
    {verb : String} (hverb : verb ∈ resource.methods) : first.handler verb = resource.handler verb := by
  obtain ⟨url, hurl⟩ := List.exists_mem_of_ne_nil urls hurls
  -- A method is documented with its handler under settings that show this method.
  have hallowed : verb ∈ ({ methodsList := [verb] } : Settings).allowedMethods (resource.methods.map upperMethod) := by
    rw [Settings.allowedMethods, List.mem_filter, List.any_eq_true]
    exact ⟨List.mem_singleton_self verb, _, List.mem_map_of_mem hverb, beq_iff_eq.mpr (asciiLower_upperMethod verb)⟩
  obtain ⟨handler, hbound, c, hc, hkind, hgroup, rfl, -, -, hhandler⟩ :=
    h.documented { methodsList := [verb] } rfl _ (List.mem_map_of_mem hurl) verb hallowed
  rw [hbound, ← hhandler]
  exact (handler_of_mem_classify (hname ▸ hfirst) hc hkind (hgroup.trans hname.symm)).symm

end Registered

/-- The URLs of a registered resource are dispatched to it exactly when the first handler that a call supplies for its
endpoint dispatches to its name, and the first resource of its name binds its methods to the same handlers. -/
theorem dispatches_iff {calls : List Registration} {resource : Resource} {urls : List String}
    (hcall : .addResource resource urls ∈ calls) :
    ∃ handler first, (calls.map Registration.supplied).lookup resource.endpoint = some handler ∧
      (calls.filterMap Registration.resource?).lookup resource.name = some first ∧
      (ofRegistrations calls).handler resource.endpoint = some handler ∧
      (ofRegistrations calls).resource resource.name = some first ∧
      ((ofRegistrations calls).Dispatches resource urls ↔ handler.viewClass = some resource.name ∧
        (urls ≠ [] → ∀ verb ∈ resource.methods, first.handler verb = resource.handler verb)) := by
  obtain ⟨handler, hhandler⟩ : ∃ handler, (calls.map Registration.supplied).lookup resource.endpoint = some handler := by
    rw [← Option.isSome_iff_exists, List.lookup_isSome_iff]
    exact ⟨_, List.mem_map_of_mem hcall, beq_self_eq_true _⟩
  obtain ⟨first, hfirst⟩ : ∃ first, (calls.filterMap Registration.resource?).lookup resource.name = some first := by
    rw [← Option.isSome_iff_exists, List.lookup_isSome_iff]
    exact ⟨_, List.mem_filterMap.mpr ⟨_, hcall, rfl⟩, beq_self_eq_true _⟩
  have hhandler' := (handler_ofRegistrations calls resource.endpoint).trans hhandler
  have hfirst' := (resource_ofRegistrations calls resource.name).trans hfirst
  have hname : first.name = resource.name := (ofRegistrations_wellFormed calls).resource_name _ _ hfirst'
  refine ⟨handler, first, hhandler, hfirst, hhandler', hfirst', fun h => ⟨?_, fun hurls verb hverb => ?_⟩, fun h => ?_⟩
  · obtain ⟨dispatcher, hdispatcher, hview⟩ := h.endpoint
    rw [hhandler'] at hdispatcher
    exact Option.some.inj hdispatcher ▸ hview
  · exact same_of_dispatches hname hfirst' h hurls hverb
  · exact dispatches_of_same hcall hname hfirst' hhandler' h.1 h.2

/-- A resource that shows a basket and adds to it. -/
def basket : Resource :=
  { name := "Basket", bindings := [("GET", { name := "show" }), ("POST", { name := "add" })] }

/-- The same resource without the method that adds. -/
def basketView : Resource := { basket with bindings := [("GET", { name := "show" })] }

/-- A resource whose endpoint is that of the basket. -/
def basketInCapitals : Resource := { basket with name := "BASKET" }

/-- A group's function has an endpoint of its own, and a second registration of a resource only adds URLs to it; a
resource that shares its endpoint with an earlier one is not reached. -/
theorem basketView_dispatched :
    let calls : List Registration := [.blueprintRoute "shop" "/shop/" "/basket" ["get"] { name := "basket" },
      .addResource basket ["/basket"], .addResource basketView ["/cart", "/carts"],
      .addResource basketInCapitals ["/trolley"]]
    .addResource basketView ["/cart", "/carts"] ∈ calls ∧ .addResource basketInCapitals ["/trolley"] ∈ calls ∧
      (ofRegistrations calls).Dispatches basketView ["/cart", "/carts"] ∧
      ¬ (ofRegistrations calls).Dispatches basketInCapitals ["/trolley"] := by
  intro calls
  have hview : .addResource basketView ["/cart", "/carts"] ∈ calls := by decide
  have hcapitals : .addResource basketInCapitals ["/trolley"] ∈ calls := by decide
  have hendpoint : (calls.map Registration.supplied).lookup "basket" = some (dispatcher basket) := by decide
  have hname : (calls.filterMap Registration.resource?).lookup "Basket" = some basket := by decide
  refine ⟨hview, hcapitals, ?_, ?_⟩
  · obtain ⟨handler, first, hhandler, hfirst, -, -, hiff⟩ := dispatches_iff hview
    obtain rfl : dispatcher basket = handler := Option.some.inj (hendpoint.symm.trans hhandler)
    obtain rfl : basket = first := Option.some.inj (hname.symm.trans hfirst)
    exact hiff.mpr ⟨rfl, fun _ => by decide⟩
  · obtain ⟨handler, first, hhandler, -, -, -, hiff⟩ := dispatches_iff hcapitals
    obtain rfl : dispatcher basket = handler := Option.some.inj (hendpoint.symm.trans hhandler)
    intro h
    exact absurd (hiff.mp h).1 (by decide)

/-- The URLs of a resource are not dispatched to it where a function has taken its endpoint before, nor where a resource
that binds fewer methods has taken its name. -/
theorem not_dispatches_of_taken :
    ¬ (ofRegistrations [.route "/baskets" ["get"] { name := "basket" }, .addResource basket ["/basket"]]).Dispatches
        basket ["/basket"] ∧
      ¬ (ofRegistrations [.addResource basketView ["/basket"], .addResource basket ["/cart"]]).Dispatches
        basket ["/cart"] := by
  refine ⟨fun h => ?_, fun h => ?_⟩
  · obtain ⟨handler, hhandler, hview⟩ := h.endpoint
    obtain rfl : { name := "basket" } = handler := Option.some.inj (Eq.trans (by decide) hhandler)
    cases hview
  · obtain ⟨stored, hstored, hbound⟩ := h.name
    obtain rfl : basketView = stored := Option.some.inj (Eq.trans (by decide) hstored)
    exact absurd (hbound ⟨"/cart", ["GET", "POST"], "basket"⟩ (by decide) "POST" (by decide)) (by decide)

end Application
end ApiHandbook
