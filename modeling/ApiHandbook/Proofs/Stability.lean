import ApiHandbook.Proofs.History
import ApiHandbook.Proofs.Visibility
import Mathlib.Data.List.Sort

/-! How the documentation follows the tables of an application: a further registration call keeps every entry and at most
adds URLs and methods to it, and the order of the routes decides neither which entries there are nor what they show. -/
namespace ApiHandbook
open Text

/-! Entries and the classified routes they are made of -/

/-- The classified routes of a group and a name. -/
def bearing (routes : List ClassifiedRoute) (group name : String) : List ClassifiedRoute :=
  routes.filter fun r => r.group = group ∧ r.name = name

/-- Whether all URLs and methods of an entry are also those of another one. -/
structure Entry.Within (e e' : Entry) : Prop where
  urls : ∀ w ∈ words e.url.toList, w ∈ words e'.url.toList
  methods : ∀ method, e.method = some method →
    ∃ method', e'.method = some method' ∧ ∀ w ∈ words method.toList, w ∈ words method'.toList

/-- Whether an entry is another one with more URLs or methods at most. -/
structure Entry.Extends (e' e : Entry) : Prop where
  name_eq : e'.name = e.name
  nameExtra_eq : e'.nameExtra = e.nameExtra
  doc_eq : e'.doc = e.doc
  docMd_eq : e'.docMd = e.docMd
  router_eq : e'.router = e.router
  kind_eq : e'.kind = e.kind
  within : e.Within e'

theorem Opens.bearing_eq {routes : List ClassifiedRoute} {group name : String} {first : ClassifiedRoute}
    {handler : Handler} {later : List ClassifiedRoute} (h : Opens routes group name first handler later)
    (hs : ∀ r ∈ routes, r.group = group → r.name = name → r.handler.isSome) :
    bearing routes group name = first :: later := by
  obtain ⟨before, after, rfl, hbefore, rfl⟩ := h.split
  have hnone : before.filter (fun r => r.group = group ∧ r.name = name) = [] := by
    refine List.filter_eq_nil_iff.mpr fun r hr hkey => ?_
    obtain ⟨hg, hn⟩ := of_decide_eq_true hkey
    have hsome := hs r (List.mem_append_left _ hr) hg hn
    rw [hbefore r hr hg hn] at hsome
    cases hsome
  rw [bearing, List.filter_append, hnone, List.nil_append, List.filter_cons,
    if_pos (decide_eq_true ⟨h.group_eq, h.name_eq⟩)]

/-- More routes of one kind make an entry with more URLs and methods. -/
theorem within_of_subset (settings : Settings) {first first' : ClassifiedRoute} {handler handler' : Handler}
    {later later' : List ClassifiedRoute} (hkind : first.kind = first'.kind)
    (hsubset : ∀ c ∈ first :: later, c ∈ first' :: later') :
    (mergedEntry settings first handler later).Within (mergedEntry settings first' handler' later') := by
  have hwords (text : ClassifiedRoute → String) (w : List Char)
      (hw : w ∈ words (united (text first) (later.map text)).toList) :
      w ∈ words (united (text first') (later'.map text)).toList := by
    obtain ⟨t, ht, hwt⟩ := (mem_words_united w _ _).mp hw
    rw [← List.map_cons] at ht
    obtain ⟨c, hc, rfl⟩ := List.mem_map.mp ht
    refine (mem_words_united w _ _).mpr ⟨text c, ?_, hwt⟩
    rw [← List.map_cons]
    exact List.mem_map_of_mem (hsubset c hc)
  refine ⟨hwords ClassifiedRoute.url, fun method hmethod => ?_⟩
  rw [mergedEntry] at hmethod ⊢
  rw [← hkind]
  cases hk : first.kind with
  | api =>
    rw [hk] at hmethod
    obtain rfl := Option.some.inj hmethod
    exact ⟨_, rfl, hwords fun r => joinMethods r.methods⟩
  | restfulApi =>
    rw [hk] at hmethod
    cases hmethod

/-- Later routes only add URLs and methods to an entry. -/
theorem mergedEntry_append_extends (settings : Settings) (first : ClassifiedRoute) (handler : Handler)
    (later more : List ClassifiedRoute) :
    (mergedEntry settings first handler (later ++ more)).Extends (mergedEntry settings first handler later) where
  name_eq := rfl
  nameExtra_eq := rfl
  doc_eq := rfl
  docMd_eq := rfl
  router_eq := rfl
  kind_eq := rfl
  within := within_of_subset settings rfl fun c hc => by
    rw [← List.cons_append]
    exact List.mem_append_left _ hc

variable {settings : Settings} {app : Application}

section
variable (hw : app.WellFormed) (hv : settings.validate = .ok ())
include hw hv

/-- The entry of a group and a name is what the classified routes of this group and name make, in their order. -/
theorem isChild_iff_bearing {group name : String} {kind : ApiKind} {e : Entry} :
    IsChild (Aggregate.build settings app.source) group name kind e ↔
      ∃ first handler later, bearing (app.source.classify settings) group name = first :: later ∧
        first.handler = some handler ∧ first.kind = kind ∧ e = mergedEntry settings first handler later := by
  have hforward {kind : ApiKind} {e : Entry} (h : IsChild (Aggregate.build settings app.source) group name kind e) :
      ∃ first handler later, bearing (app.source.classify settings) group name = first :: later ∧
        first.handler = some handler ∧ first.kind = kind ∧ e = mergedEntry settings first handler later := by
    obtain ⟨first, handler, later, ho, hkind, he⟩ := opens_of_isChild h
    have hfirst : first ∈ app.source.classify settings := by
      obtain ⟨before, after, hsplit, -⟩ := ho.split
      rw [hsplit]
      exact List.mem_append_right _ List.mem_cons_self
    refine ⟨first, handler, later, ho.bearing_eq fun c hc hg hn => ?_, ho.handler_eq, hkind, he⟩
    exact handler_isSome_of_mem_classify hw hv hfirst hc (ho.group_eq.trans hg.symm) (ho.name_eq.trans hn.symm)
      (by rw [ho.handler_eq, Option.isSome_some])
  refine ⟨hforward, ?_⟩
  rintro ⟨first, handler, later, hbearing, hhandler, rfl, rfl⟩
  obtain ⟨hmem, hkey⟩ := List.mem_filter.mp (hbearing ▸ List.mem_cons_self : first ∈ bearing _ group name)
  obtain ⟨rfl, rfl⟩ := of_decide_eq_true hkey
  obtain ⟨kind, e, he⟩ := exists_isChild hmem (by rw [hhandler, Option.isSome_some])
  -- The entry that is there is made of the same routes.
  obtain ⟨first', handler', later', hbearing', hhandler', hkind, rfl⟩ := hforward he
  obtain ⟨rfl, rfl⟩ := List.cons.inj (hbearing.symm.trans hbearing')
  obtain rfl := Option.some.inj (hhandler.symm.trans hhandler')
  exact hkind ▸ he

/-! Further registrations -/

omit hw hv in
theorem classify_of_unknown {r : Route} {handler : Handler} {name : String}
    (hhandler : app.handler r.endpoint = some handler) (hview : handler.viewClass = some name)
    (hresource : app.resource name = none) : r.classify settings app.source = [] := by
  have hs : app.source.handler r.endpoint = some handler := hhandler
  have hrs : app.source.resource name = none := hresource
  simp only [Route.classify, hs, Option.bind_some, hview, hrs]

omit hv in
/-- A further call leaves what a route is classified as, unless the class that dispatches the route was not known and is
registered by the call. -/
theorem classify_register (call : Registration) {r : Route} (hr : r ∈ app.routes) :
    r.classify settings (app.register call).source = r.classify settings app.source ∨
      r.classify settings app.source = [] ∧ ∃ resource, app.resource resource.name = none ∧
        r.classify settings (app.register call).source = r.classifyResource settings resource := by
  obtain ⟨handler, hhandler⟩ := Option.isSome_iff_exists.mp (hw.handler_isSome r hr)
  have hhandler' : (app.register call).handler r.endpoint = some handler := by
    rw [Application.handler_register, hhandler, Option.some_or]
  cases hview : handler.viewClass with
  | none => exact .inl ((classify_of_function hhandler' hview).trans (classify_of_function hhandler hview).symm)
  | some name =>
    cases hresource : app.resource name with
    | some resource =>
      have hresource' : (app.register call).resource name = some resource := by
        rw [Application.resource_register, hresource, Option.some_or]
      exact .inl ((classify_of_resource hhandler' hview hresource').trans
        (classify_of_resource hhandler hview hresource).symm)
    | none =>
      have hnil : r.classify settings app.source = [] := classify_of_unknown hhandler hview hresource
      cases hresource' : (app.register call).resource name with
      | none => exact .inl ((classify_of_unknown hhandler' hview hresource').trans hnil.symm)
      | some resource =>
        have hname := (Application.register_wellFormed hw call).resource_name name resource hresource'
        exact .inr ⟨hnil, resource, hname ▸ hresource, classify_of_resource hhandler' hview hresource'⟩

/-- The routes of a class that was not known bear no group and name that has an entry already: such an entry would be one
of this class. -/
theorem bearing_register (call : Registration) {c : ClassifiedRoute} (hc : c ∈ app.source.classify settings) :
    ∃ more, bearing ((app.register call).source.classify settings) c.group c.name =
      bearing (app.source.classify settings) c.group c.name ++ more := by
  have hold : ∀ r ∈ app.routes, bearing (r.classify settings (app.register call).source) c.group c.name =
      bearing (r.classify settings app.source) c.group c.name := by
    intro r hr
    rcases classify_register hw call hr with heq | ⟨hnil, resource, hunknown, hnew⟩
    · rw [heq]
    · rw [hnil, hnew]
      refine List.filter_eq_nil_iff.mpr fun d hd hkey => ?_
      obtain ⟨hg, hn⟩ := of_decide_eq_true hkey
      have hrestful := ((mem_classifyResource_iff r resource d).mp hd).2.2
      have hroutes : r ∈ (app.register call).source.routes := by
        rw [show (app.register call).source.routes = (app.register call).routes from rfl, Application.register_eq]
        exact List.mem_append_left _ hr
      have hd' : d ∈ (app.register call).source.classify settings := List.mem_flatMap.mpr ⟨r, hroutes, hnew ▸ hd⟩
      have hmethod := (kind_of_mem_classify (Application.register_wellFormed hw call) hv hd').mp (by rw [hrestful])
      have hkind := (kind_of_mem_classify hw hv hc).mpr (hn ▸ hmethod)
      rcases mem_classify_cases hw hc with ⟨_, _, _, heq, _⟩ | ⟨_, _, stored, hstored, -, -, -⟩
      · rw [heq] at hkind
        cases hkind
      · rw [← hg, hrestful, hunknown] at hstored
        cases hstored
  refine ⟨bearing (call.routes.flatMap fun r => r.classify settings (app.register call).source) c.group c.name, ?_⟩
  rw [RouteSource.classify, show (app.register call).source.routes = app.routes ++ call.routes by
    rw [show (app.register call).source.routes = (app.register call).routes from rfl, Application.register_eq],
    List.flatMap_append, bearing, List.filter_append, List.filter_flatMap]
  congr 1
  rw [bearing, RouteSource.classify, List.filter_flatMap]
  exact List.flatMap_congr hold

theorem exists_extends_register (call : Registration) {group name : String} {kind : ApiKind} {e : Entry}
    (h : IsChild (Aggregate.build settings app.source) group name kind e) :
    ∃ e', IsChild (Aggregate.build settings (app.register call).source) group name kind e' ∧ e'.Extends e := by
  obtain ⟨first, handler, later, hbearing, hhandler, hkind, rfl⟩ := (isChild_iff_bearing hw hv).mp h
  obtain ⟨hmem, hkey⟩ := List.mem_filter.mp (hbearing ▸ List.mem_cons_self : first ∈ bearing _ group name)
  obtain ⟨rfl, rfl⟩ := of_decide_eq_true hkey
  obtain ⟨more, hmore⟩ := bearing_register hw hv call hmem
  rw [hbearing, List.cons_append] at hmore
  exact ⟨_, (isChild_iff_bearing (Application.register_wellFormed hw call) hv).mpr
    ⟨first, handler, later ++ more, hmore, hhandler, hkind, rfl⟩, mergedEntry_append_extends ..⟩

end

/-- A further registration call keeps every documented entry, and adds at most URLs and methods to it. -/
theorem children_extended (calls : List Registration) (call : Registration) (settings : Settings)
    (hv : settings.validate = .ok ()) :
    ∀ group name kind e,
      IsChild (Aggregate.build settings (Application.ofRegistrations calls).source) group name kind e →
        ∃ e', IsChild (Aggregate.build settings ((Application.ofRegistrations calls).register call).source)
          group name kind e' ∧ e'.Extends e :=
  fun _ _ _ _ h => exists_extends_register (Application.ofRegistrations_wellFormed calls) hv call h

/-- A function is documented as before when a resource that bears the name of its group is registered, even if a route of
that resource was there from the start. -/
theorem list_all_extended :
    let settings : Settings := { member := ["shop"] }
    let calls : List Registration := [.route "/open" ["get"] { name := "shop", viewClass := some "Shop" },
      .routeWithEndpoint "/goods" ["get"] "shop.list_all" { name := "list_all", doc := some "All goods" }]
    let call : Registration := .addResource { name := "Shop", bindings := [("GET", { name := "show" })] } ["/shop"]
    settings.validate = .ok () ∧
      ∃ e, IsChild (Aggregate.build settings (Application.ofRegistrations calls).source) "Shop" "List All" .api e ∧
        ∃ e', IsChild (Aggregate.build settings ((Application.ofRegistrations calls).register call).source)
          "Shop" "List All" .api e' ∧ e'.Extends e := by
  intro settings calls call
  have hv : settings.validate = .ok () := by decide
  refine ⟨hv, ?_⟩
  let handler : Handler := { name := "list_all", doc := some "All goods" }
  have hchild : IsChild (Aggregate.build settings (Application.ofRegistrations calls).source) "Shop" "List All" .api _ :=
    (isChild_iff_bearing (Application.ofRegistrations_wellFormed calls) hv).mpr
      ⟨⟨.api, "Shop", none, "List All", "/goods", ["GET"], some handler⟩, handler, [], by decide, rfl, rfl, rfl⟩
  exact ⟨_, hchild, children_extended calls call settings hv _ _ _ _ hchild⟩

/-! The order of routes -/

namespace Application

theorem WellFormed.of_perm (hw : app.WellFormed) {routes : List Route} (hperm : routes.Perm app.routes) :
    { app with routes }.WellFormed where
  handler_isSome r hr := hw.handler_isSome r (hperm.mem_iff.mp hr)
  resource_name := hw.resource_name
  upperMethod_eq r hr := hw.upperMethod_eq r (hperm.mem_iff.mp hr)

theorem classify_perm (settings : Settings) {routes : List Route} (hperm : routes.Perm app.routes) :
    ({ app with routes }.source.classify settings).Perm (app.source.classify settings) :=
  hperm.flatMap_right _

end Application

/-- When the routes of one application are classified as routes of another one too, its entries are within those of the
other one. -/
theorem IsChild.within {app app' : Application} (hw : app.WellFormed) (hw' : app'.WellFormed)
    (hv : settings.validate = .ok ())
    (hsubset : ∀ c ∈ app.source.classify settings, c ∈ app'.source.classify settings)
    {group name : String} {kind kind' : ApiKind} {e e' : Entry}
    (h : IsChild (Aggregate.build settings app.source) group name kind e)
    (h' : IsChild (Aggregate.build settings app'.source) group name kind' e') : e.Within e' := by
  obtain ⟨first, handler, later, rfl, rfl, hmem⟩ := exists_first_later_iff hw hv h
  obtain ⟨first', handler', later', rfl, rfl, hmem'⟩ := exists_first_later_iff hw' hv h'
  obtain ⟨hfirst, -, -, hname, -⟩ := (hmem first).mp List.mem_cons_self
  obtain ⟨hfirst', -, -, hname', -⟩ := (hmem' first').mp List.mem_cons_self
  have hkind := kind_eq_of_name_eq hw' hv (hsubset first hfirst) hfirst' (hname.trans hname'.symm)
  refine within_of_subset settings hkind fun c hc => (hmem' c).mpr ?_
  obtain ⟨hcm, hck, hcg, hcn, hcs⟩ := (hmem c).mp hc
  exact ⟨hsubset c hcm, hck.trans hkind, hcg, hcn, hcs⟩

/-- Names in the order of their bytes are determined by which names there are. -/
theorem eq_of_pairwise_bytes {names names' : List String} (h : names.Pairwise fun a b => bytes a < bytes b)
    (h' : names'.Pairwise fun a b => bytes a < bytes b) (hmem : ∀ name, name ∈ names ↔ name ∈ names') :
    names = names' := by
  have hlt {l : List String} (hl : l.Pairwise fun a b => bytes a < bytes b) : l.Pairwise (· < ·) :=
    hl.imp (lt_iff_bytes_lt _ _).mpr
  exact (hlt h).eq_of_mem_iff (hlt h') hmem

theorem Summarizes.mem_names {routes : List ClassifiedRoute} {groups : Aggregate} (h : Summarizes settings routes groups)
    {g : Group} (hg : g ∈ groups) (name : String) :
    name ∈ g.children.map Entry.name ↔ ∃ r ∈ routes, r.group = g.name ∧ r.name = name ∧ r.handler.isSome := by
  rw [← h.mem_children, List.mem_map]
  constructor
  · rintro ⟨e, he, hname⟩
    exact ⟨g, hg, rfl, e, he, hname⟩
  · rintro ⟨other, hother, hgroup, e, he, hname⟩
    obtain rfl := List.inj_on_of_nodup_map h.group_nodup hother hg hgroup
    exact ⟨e, he, hname⟩

/-- The order of the routes decides neither which groups and entries there are nor which URLs and methods an entry has. -/
theorem build_of_perm (calls : List Registration) (settings : Settings) (hv : settings.validate = .ok ())
    (routes : List Route) (hperm : routes.Perm (Application.ofRegistrations calls).routes) :
    let app := Application.ofRegistrations calls
    let groups := Aggregate.build settings app.source
    let groups' := Aggregate.build settings { app with routes }.source
    (groups'.map Group.name).Perm (groups.map Group.name) ∧
    ∀ g ∈ groups, ∀ g' ∈ groups', g'.name = g.name →
      g'.children.map Entry.name = g.children.map Entry.name ∧
      ∀ e ∈ g.children, ∀ e' ∈ g'.children, e'.name = e.name → e.Within e' ∧ e'.Within e := by
  intro app groups groups'
  have hw : app.WellFormed := Application.ofRegistrations_wellFormed calls
  have hw' := hw.of_perm hperm
  have hclassify := Application.classify_perm settings hperm
  have hsum := build_summarizes settings app.source
  have hsum' := build_summarizes settings { app with routes }.source
  refine ⟨?_, fun g hg g' hg' hname => ⟨?_, fun e he e' he' hname' => ?_⟩⟩
  · refine (List.perm_ext_iff_of_nodup hsum'.group_nodup hsum.group_nodup).mpr fun name => ?_
    rw [hsum'.mem_groups, hsum.mem_groups]
    exact exists_congr fun r => and_congr_left fun _ => hclassify.mem_iff
  · refine eq_of_pairwise_bytes (hsum'.child_order g' hg') (hsum.child_order g hg) fun name => ?_
    rw [hsum'.mem_names hg', hsum.mem_names hg, hname]
    exact exists_congr fun r => and_congr_left fun _ => hclassify.mem_iff
  · have hchild : IsChild groups g.name e.name e.kind e := ⟨⟨g, hg, rfl, he⟩, rfl, rfl⟩
    have hchild' : IsChild groups' g.name e.name e'.kind e' := ⟨⟨g', hg', hname, he'⟩, hname', rfl⟩
    exact ⟨hchild.within hw hw' hv (fun c => hclassify.mem_iff.mpr) hchild',
      hchild'.within hw' hw hv (fun c => hclassify.mem_iff.mp) hchild⟩

/-- A function at two URLs and a resource whose class is registered behind them, read from the last route to the first. -/
theorem build_of_reverse :
    let settings : Settings := { member := ["shop"] }
    let app := Application.ofRegistrations [.routeWithEndpoint "/goods" ["get"] "shop.list_all" { name := "list_all" },
      .routeWithEndpoint "/stock" ["get", "head"] "shop.list_all" { name := "list_all" },
      .addResource { name := "Shop", bindings := [("GET", { name := "show" })] } ["/shop"]]
    let routes : List Route := [⟨"/shop", ["GET"], "shop"⟩, ⟨"/stock", ["GET", "HEAD"], "shop.list_all"⟩,
      ⟨"/goods", ["GET"], "shop.list_all"⟩]
    settings.validate = .ok () ∧ routes.Perm app.routes ∧
      ∀ g ∈ Aggregate.build settings app.source, ∀ g' ∈ Aggregate.build settings { app with routes }.source,
        g'.name = g.name → g'.children.map Entry.name = g.children.map Entry.name ∧
          ∀ e ∈ g.children, ∀ e' ∈ g'.children, e'.name = e.name → e.Within e' ∧ e'.Within e := by
  intro settings app routes
  have hv : settings.validate = .ok () := by decide
  have hperm : routes.Perm app.routes := by decide
  exact ⟨hv, hperm, (build_of_perm _ settings hv routes hperm).2⟩

end ApiHandbook
