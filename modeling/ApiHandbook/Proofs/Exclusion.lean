import ApiHandbook.Markdown.Document
import ApiHandbook.Proofs.Visibility
import ApiHandbook.Service

/-! What the settings keep hidden has no influence: applications that differ only in the documentation of hidden handlers
and methods have the same documentation. -/
namespace ApiHandbook
open Text

namespace Application

/-- Two applications that agree on everything but what the settings keep hidden. Handlers may differ in docstring, text
and argument declarations where no route shows them; resources may differ in their docstrings where no route shows them,
and in their handlers also for methods that are never shown. -/
structure SameShown (settings : Settings) (a b : Application) : Prop where
  routes_eq : a.routes = b.routes
  handlers_alike : ∀ endpoint, (a.handler endpoint).map (fun h => (h.name, h.viewClass)) =
    (b.handler endpoint).map fun h => (h.name, h.viewClass)
  resources_alike : ∀ name, (a.resource name).map (fun r => (r.name, r.methods)) =
    (b.resource name).map fun r => (r.name, r.methods)
  handler_eq : ∀ r ∈ a.routes, ∀ group name, ShownFunction settings a r group name → ∀ h k,
    a.handler r.endpoint = some h → b.handler r.endpoint = some k →
      h.doc = k.doc ∧ h.source = k.source ∧ h.arguments = k.arguments
  resource_eq : ∀ r ∈ a.routes, ∀ dispatcher viewClass, a.handler r.endpoint = some dispatcher →
    dispatcher.viewClass = some viewClass → ∀ p q, a.resource viewClass = some p → b.resource viewClass = some q →
      p.name ∉ settings.restfulExclude → r.endpoint ∉ settings.restfulExclude →
        p.doc = q.doc ∧ ∀ method ∈ settings.methodsList, p.handler method = q.handler method

end Application

variable {settings : Settings} {a b : Application}

/-- Where two partial results look alike, both are there or none is. -/
private theorem cases_of_map_eq {α β : Type} {f : α → β} {x y : Option α} (h : x.map f = y.map f) :
    x = none ∧ y = none ∨ ∃ u v, x = some u ∧ y = some v ∧ f u = f v := by
  cases x <;> cases y <;> simp_all

/-- A route that shows nothing of its function has no entries. -/
theorem classifyFunction_eq_nil {r : Route} {h : Handler} (hh : a.handler r.endpoint = some h) (hv : h.viewClass = none)
    (hn : ∀ group name, ¬ ShownFunction settings a r group name) : r.classifyFunction settings (some h) = [] :=
  List.eq_nil_iff_forall_not_mem.mpr fun c hc => hn _ _ ((mem_classifyFunction_iff hh hv c).mp hc).1

theorem classifyResource_congr {r : Route} {p q : Resource} (hname : p.name = q.name)
    (heq : p.name ∉ settings.restfulExclude → r.endpoint ∉ settings.restfulExclude →
      p.doc = q.doc ∧ ∀ method ∈ settings.methodsList, p.handler method = q.handler method) :
    r.classifyResource settings p = r.classifyResource settings q := by
  rw [Route.classifyResource, Route.classifyResource, ← hname]
  split
  · rfl
  · rename_i hexclude
    have hshown : p.name ∉ settings.restfulExclude ∧ r.endpoint ∉ settings.restfulExclude := by
      simp only [List.any_eq_true, Bool.or_eq_true, beq_iff_eq, not_exists, not_and, not_or] at hexclude
      exact ⟨fun hm => (hexclude _ hm).1 rfl, fun hm => (hexclude _ hm).2 rfl⟩
    obtain ⟨hdoc, hhandler⟩ := heq hshown.1 hshown.2
    refine List.map_congr_left fun method hm => ?_
    rw [hdoc, hhandler method (List.mem_of_mem_filter hm)]

namespace Application.SameShown
variable (h : SameShown settings a b)
include h

theorem shownFunction {r : Route} {group name : String} (hs : ShownFunction settings b r group name) :
    ShownFunction settings a r group name := by
  obtain ⟨handler, hh, hview, hname, hhumanize⟩ := hs.handled
  rcases cases_of_map_eq (h.handlers_alike r.endpoint) with ⟨-, hb⟩ | ⟨u, v, ha, hb, huv⟩
  · rw [hb] at hh
    cases hh
  · obtain rfl := Option.some.inj (hb.symm.trans hh)
    obtain ⟨hn, hw⟩ := Prod.mk.inj huv
    exact { hs with handled := ⟨u, ha, hw.trans hview, hn ▸ hname, hn ▸ hhumanize⟩ }

/-- A route has the same entries in both applications. -/
theorem classify_route {r : Route} (hr : r ∈ a.routes) :
    r.classify settings a.source = r.classify settings b.source := by
  rcases cases_of_map_eq (h.handlers_alike r.endpoint) with ⟨ha, hb⟩ | ⟨u, v, ha, hb, huv⟩
  · have hsa : a.source.handler r.endpoint = none := ha
    have hsb : b.source.handler r.endpoint = none := hb
    simp only [Route.classify, hsa, hsb, Option.bind_none]
  · obtain ⟨hname, hview⟩ := Prod.mk.inj huv
    cases hclass : u.viewClass with
    | none =>
      have hclass' : v.viewClass = none := hview ▸ hclass
      rw [classify_of_function ha hclass, classify_of_function hb hclass']
      by_cases hs : ∃ group name, ShownFunction settings a r group name
      · obtain ⟨group, name, hs⟩ := hs
        obtain ⟨hdoc, hsource, harguments⟩ := h.handler_eq r hr group name hs u v ha hb
        have huv : u = v := by
          cases u
          cases v
          simp_all
        rw [huv]
      · have hn (group name : String) : ¬ ShownFunction settings a r group name := fun hg => hs ⟨group, name, hg⟩
        rw [classifyFunction_eq_nil ha hclass hn,
          classifyFunction_eq_nil hb hclass' fun group name hg => hn group name (h.shownFunction hg)]
    | some viewClass =>
      have hclass' : v.viewClass = some viewClass := hview ▸ hclass
      rcases cases_of_map_eq (h.resources_alike viewClass) with ⟨hpa, hpb⟩ | ⟨p, q, hpa, hpb, hpq⟩
      · have hsa : a.source.handler r.endpoint = some u := ha
        have hsb : b.source.handler r.endpoint = some v := hb
        have hra : a.source.resource viewClass = none := hpa
        have hrb : b.source.resource viewClass = none := hpb
        simp only [Route.classify, hsa, hsb, Option.bind_some, hclass, hclass', hra, hrb]
      · rw [classify_of_resource ha hclass hpa, classify_of_resource hb hclass' hpb]
        exact classifyResource_congr (Prod.mk.inj hpq).1 (h.resource_eq r hr u viewClass ha hclass p q hpa hpb)

theorem classify_eq : a.source.classify settings = b.source.classify settings := by
  have hroutes : b.source.routes = a.source.routes := h.routes_eq.symm
  rw [RouteSource.classify, RouteSource.classify, hroutes]
  exact List.flatMap_congr fun r hr => h.classify_route hr

end Application.SameShown

/-- Whatever the docstrings, texts and argument declarations of hidden handlers and methods are: the aggregate is the
same, and so are the payload, the page, the document and every answer of the service. -/
theorem build_eq_of_sameShown (h : Application.SameShown settings a b) :
    Aggregate.build settings a.source = Aggregate.build settings b.source ∧
    (∀ referrer, (Payload.build settings (Aggregate.build settings a.source) referrer).text =
      (Payload.build settings (Aggregate.build settings b.source) referrer).text) ∧
    (∀ referrer, Page.offline settings (Payload.build settings (Aggregate.build settings a.source) referrer).text =
      Page.offline settings (Payload.build settings (Aggregate.build settings b.source) referrer).text) ∧
    Markdown.document settings (Aggregate.build settings a.source) =
      Markdown.document settings (Aggregate.build settings b.source) ∧
    ∀ request, settings.serve request a.source = settings.serve request b.source := by
  have hbuild : Aggregate.build settings a.source = Aggregate.build settings b.source := by
    rw [Aggregate.build, Aggregate.build, h.classify_eq]
  refine ⟨hbuild, fun referrer => by rw [hbuild], fun referrer => by rw [hbuild], by rw [hbuild], fun request => ?_⟩
  simp only [Settings.serve, Settings.answer, Settings.answerData, hbuild]

def basketHiding (secret : String) : Resource :=
  { name := "Basket", bindings := [("GET", { name := "get" }), ("HEAD", { name := "head", doc := some secret })] }

/-- A shop with a hidden function and a method that is never shown, both with the given docstring. -/
def shopHiding (secret : String) : Application := Application.ofRegistrations
  [.routeWithEndpoint "/goods" ["get"] "shop.list_all" { name := "list_all", doc := some "All goods" },
    .routeWithEndpoint "/goods" ["delete"] "shop.purge" { name := "purge", doc := some secret, source := some secret },
    .addResource (basketHiding secret) ["/basket"]]

private theorem map_lookup {α β : Type} (f : α → β) (entries : List (String × α)) (k : String) :
    (entries.lookup k).map f = (entries.map fun entry => (entry.1, f entry.2)).lookup k := by
  induction entries with
  | nil => rfl
  | cons entry entries ih =>
    rw [List.map_cons, lookup_cons_eq, lookup_cons_eq, ← ih]
    split_ifs <;> rfl

theorem sameShown_shopHiding :
    Application.SameShown { member := ["shop"], memberSubExclude := ["purge"] } (shopHiding "one") (shopHiding "two") where
  routes_eq := by decide
  handlers_alike endpoint := by
    rw [Application.handler, Application.handler, map_lookup, map_lookup]
    exact congrArg (List.lookup endpoint) (by decide)
  resources_alike name := by
    rw [Application.resource, Application.resource, map_lookup, map_lookup]
    exact congrArg (List.lookup name) (by decide)
  handler_eq r hr group name hs h k hh hk := by
    have hroutes : (shopHiding "one").routes = [⟨"/goods", ["GET"], "shop.list_all"⟩, ⟨"/goods", ["DELETE"], "shop.purge"⟩,
      ⟨"/basket", ["GET", "HEAD"], "basket"⟩] := by decide
    obtain ⟨handler, hhandler, hview, hname, -⟩ := hs.handled
    obtain rfl := Option.some.inj (hhandler.symm.trans hh)
    rw [hroutes] at hr
    simp only [List.mem_cons, List.not_mem_nil, or_false] at hr
    rcases hr with rfl | rfl | rfl
    · have ha : (shopHiding "one").handler "shop.list_all" = some { name := "list_all", doc := some "All goods" } := by
        decide
      have hb : (shopHiding "two").handler "shop.list_all" = some { name := "list_all", doc := some "All goods" } := by
        decide
      obtain rfl := Option.some.inj (ha.symm.trans hh)
      obtain rfl := Option.some.inj (hb.symm.trans hk)
      exact ⟨rfl, rfl, rfl⟩
    · have ha : ((shopHiding "one").handler "shop.purge").map Handler.name = some "purge" := by decide
      rw [hh] at ha
      exact absurd (Option.some.inj ha) fun he => hname (by simp [he])
    · have ha : ((shopHiding "one").handler "basket").map Handler.viewClass = some (some "Basket") := by decide
      rw [hh, Option.map_some, hview] at ha
      cases ha
  resource_eq r hr dispatcher viewClass hd hv p q hp hq _ _ := by
    have ha : (shopHiding "one").resources = [("Basket", basketHiding "one")] := by decide
    have hb : (shopHiding "two").resources = [("Basket", basketHiding "two")] := by decide
    rw [Application.resource, ha, lookup_cons_eq] at hp
    rw [Application.resource, hb, lookup_cons_eq] at hq
    split_ifs at hp hq
    · obtain rfl := Option.some.inj hp
      obtain rfl := Option.some.inj hq
      exact ⟨rfl, by decide⟩
    · cases hp

/-- A secret in the docstring of a hidden function or of a method that is never shown stays out of the documentation. -/
theorem build_shopHiding :
    let settings : Settings := { member := ["shop"], memberSubExclude := ["purge"] }
    Application.SameShown settings (shopHiding "one") (shopHiding "two") ∧ shopHiding "one" ≠ shopHiding "two" ∧
      Aggregate.build settings (shopHiding "one").source = Aggregate.build settings (shopHiding "two").source :=
  ⟨sameShown_shopHiding, by decide, (build_eq_of_sameShown sameShown_shopHiding).1⟩

end ApiHandbook
