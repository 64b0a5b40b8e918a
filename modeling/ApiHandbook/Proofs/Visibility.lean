import ApiHandbook.Proofs.Aggregation
import ApiHandbook.Proofs.Registration

/-! Which URLs and methods the documentation of an application shows: those of the routes that the settings ask for,
and no others. -/
namespace ApiHandbook
open Text

namespace Settings

theorem methodsList_of_validate {settings : Settings} (h : settings.validate = .ok ()) :
    ∀ method ∈ settings.methodsList, method ∈ httpMethods := by
  rw [validate] at h
  split at h
  · cases h
  · split at h
    · cases h
    · rename_i hn
      simpa using hn

theorem upperMethod_of_mem_httpMethods : ∀ method ∈ httpMethods, upperMethod method = method := by
  decide

theorem words_of_mem_httpMethods : ∀ method ∈ httpMethods, words method.toList = [method.toList] := by
  decide

/-- Among methods in capitals, the shown ones are those that the settings list. -/
theorem mem_allowedMethods {settings : Settings} (h : settings.validate = .ok ()) {methods : List String}
    (hm : ∀ method ∈ methods, upperMethod method = method) (verb : String) :
    verb ∈ settings.allowedMethods methods ↔ verb ∈ settings.methodsList ∧ verb ∈ methods := by
  rw [allowedMethods, List.mem_filter]
  refine and_congr_right fun hl => ?_
  have hu := upperMethod_of_mem_httpMethods verb (methodsList_of_validate h verb hl)
  rw [List.any_eq_true]
  constructor
  · rintro ⟨method, hmem, hs⟩
    rwa [← (sameIgnoringCase_iff (hm method hmem) hu).mp hs]
  · intro hmem
    exact ⟨verb, hmem, (sameIgnoringCase_iff hu hu).mpr rfl⟩

end Settings

/-- A route of a plain handler that is shown as the entry `name` of the group `group`. -/
structure ShownFunction (settings : Settings) (app : Application) (r : Route) (group name : String) : Prop where
  handled : ∃ handler, app.handler r.endpoint = some handler ∧ handler.viewClass = none ∧
    handler.name ∉ settings.memberSubExclude ∧ mapped humanize handler.name = name
  endpoint_shown : r.endpoint ∉ settings.memberSubExclude
  member : r.moduleName ∈ settings.member
  group_eq : mapped capitalize r.moduleName = group
  method_shown : ∃ method ∈ r.methods, ∃ allowed ∈ settings.methodsList,
    sameIgnoringCase method.toList allowed.toList = true

/-- A route that is dispatched to a registered resource and shown as the method `verb` of that resource. -/
structure ShownResource (settings : Settings) (app : Application) (r : Route) (name verb : String) : Prop where
  dispatched : ∃ handler, app.handler r.endpoint = some handler ∧ handler.viewClass = some name
  bound : ∃ resource, app.resource name = some resource ∧ (resource.handler verb).isSome
  name_shown : name ∉ settings.restfulExclude
  endpoint_shown : r.endpoint ∉ settings.restfulExclude
  verb_shown : verb ∈ settings.methodsList
  accepted : verb ∈ r.methods

variable {settings : Settings} {app : Application}

theorem classify_of_function {r : Route} {handler : Handler} (hh : app.handler r.endpoint = some handler)
    (hv : handler.viewClass = none) :
    r.classify settings app.source = r.classifyFunction settings (some handler) := by
  have hs : app.source.handler r.endpoint = some handler := hh
  simp only [Route.classify, hs, Option.bind_some, hv]

theorem classify_of_resource {r : Route} {handler : Handler} {name : String} {resource : Resource}
    (hh : app.handler r.endpoint = some handler) (hv : handler.viewClass = some name)
    (hr : app.resource name = some resource) :
    r.classify settings app.source = r.classifyResource settings resource := by
  have hs : app.source.handler r.endpoint = some handler := hh
  have hrs : app.source.resource name = some resource := hr
  simp only [Route.classify, hs, Option.bind_some, hv, hrs]

theorem isEmpty_allowedMethods (settings : Settings) (methods : List String) :
    (settings.allowedMethods methods).isEmpty = false ↔ ∃ method ∈ methods, ∃ allowed ∈ settings.methodsList,
      sameIgnoringCase method.toList allowed.toList = true := by
  rw [List.isEmpty_eq_false_iff_exists_mem]
  simp only [Settings.allowedMethods, List.mem_filter, List.any_eq_true]
  constructor
  · rintro ⟨allowed, ha, method, hm, hs⟩
    exact ⟨method, hm, allowed, ha, hs⟩
  · rintro ⟨method, hm, allowed, ha, hs⟩
    exact ⟨allowed, ha, method, hm, hs⟩

private theorem any_eq_false_iff (names : List String) (a b : String) :
    (names.any fun name => name == a || name == b) = false ↔ a ∉ names ∧ b ∉ names := by
  simp only [List.any_eq_false, Bool.or_eq_true, beq_iff_eq, not_or]
  exact ⟨fun h => ⟨fun hm => (h _ hm).1 rfl, fun hm => (h _ hm).2 rfl⟩,
    fun h hidden hm => ⟨fun he => h.1 (he ▸ hm), fun he => h.2 (he ▸ hm)⟩⟩

/-- What a route of a plain handler is classified as. -/
theorem mem_classifyFunction_iff {r : Route} {handler : Handler} (hh : app.handler r.endpoint = some handler)
    (hv : handler.viewClass = none) (c : ClassifiedRoute) :
    c ∈ r.classifyFunction settings (some handler) ↔
      ShownFunction settings app r c.group c.name ∧
        c = ⟨.api, c.group, none, c.name, r.rule, settings.allowedMethods r.methods, some handler⟩ := by
  have hf : r.functionName (some handler) = handler.name := rfl
  have hx := any_eq_false_iff settings.memberSubExclude (r.functionName (some handler)) r.endpoint
  have hm := isEmpty_allowedMethods settings r.methods
  rw [Route.classifyFunction]
  constructor
  · intro hc
    split at hc
    · cases hc
    · rename_i hmember
      split at hc
      · cases hc
      · rename_i hhidden
        obtain ⟨hname, hendpoint⟩ := hx.mp (Bool.eq_false_iff.mpr hhidden)
        split at hc
        · cases hc
        · rename_i hmethods
          obtain rfl := List.mem_singleton.mp hc
          exact ⟨⟨⟨handler, hh, hv, hname, rfl⟩, hendpoint, by simpa using hmember, rfl,
            hm.mp (Bool.eq_false_iff.mpr hmethods)⟩, rfl⟩
  · rintro ⟨⟨⟨handler', hh', -, hname, hn⟩, hendpoint, hmember, hg, hmethod⟩, hc⟩
    obtain rfl := Option.some.inj (hh.symm.trans hh')
    rw [if_neg (by simpa using hmember), if_neg (Bool.eq_false_iff.mp (hx.mpr ⟨hname, hendpoint⟩)),
      if_neg (Bool.eq_false_iff.mp (hm.mpr hmethod)), hg, hf, hn, List.mem_singleton]
    exact hc

/-- What a route that is dispatched to a resource is classified as. -/
theorem mem_classifyResource_iff (r : Route) (resource : Resource) (c : ClassifiedRoute) :
    c ∈ r.classifyResource settings resource ↔
      (resource.name ∉ settings.restfulExclude ∧ r.endpoint ∉ settings.restfulExclude) ∧
        c.name ∈ settings.allowedMethods r.methods ∧
        c = ⟨.restfulApi, resource.name, resource.doc, c.name, r.rule, [c.name], resource.handler c.name⟩ := by
  rw [Route.classifyResource, ← any_eq_false_iff]
  split
  · rename_i h
    simp [h]
  · rename_i h
    rw [List.mem_map]
    refine ⟨?_, fun hc => ⟨c.name, hc.2.1, hc.2.2.symm⟩⟩
    rintro ⟨method, hm, rfl⟩
    exact ⟨Bool.eq_false_iff.mpr h, hm, rfl⟩

/-- An entry of the aggregate with its group, its name and its kind. -/
def IsChild (aggregate : Aggregate) (group name : String) (kind : ApiKind) (e : Entry) : Prop :=
  (∃ g ∈ aggregate, g.name = group ∧ e ∈ g.children) ∧ e.name = name ∧ e.kind = kind

theorem opens_of_isChild {source : RouteSource} {group name : String} {kind : ApiKind} {e : Entry}
    (h : IsChild (Aggregate.build settings source) group name kind e) :
    ∃ first handler later, Opens (source.classify settings) group name first handler later ∧ first.kind = kind ∧
      e = mergedEntry settings first handler later := by
  obtain ⟨⟨g, hg, rfl, he⟩, rfl, rfl⟩ := h
  rw [(Aggregate.children_of_mem_build settings source hg).1] at he
  obtain ⟨first, handler, later, ho, he⟩ := exists_opens_of_mem settings ((List.mergeSort_perm _ _).mem_iff.mp he)
  exact ⟨first, handler, later, ho, congrArg Entry.kind he.symm, he⟩

theorem exists_isChild {source : RouteSource} {c : ClassifiedRoute} (hc : c ∈ source.classify settings)
    (hs : c.handler.isSome) :
    ∃ kind e, IsChild (Aggregate.build settings source) c.group c.name kind e := by
  have hn := (mem_names_gather settings (source.classify settings) c.group c.name).mpr ⟨c, hc, rfl, rfl, hs⟩
  obtain ⟨e, he, hen⟩ := List.mem_map.mp hn
  obtain ⟨g, hg, hgn⟩ := Aggregate.exists_mem_build settings source (List.ne_nil_of_mem he)
  refine ⟨e.kind, e, ⟨g, hg, hgn, ?_⟩, hen, rfl⟩
  rw [(Aggregate.children_of_mem_build settings source hg).1, hgn]
  exact (List.mergeSort_perm _ _).mem_iff.mpr he

/-- A classified route comes from a route of a plain handler or from one that is dispatched to a resource. -/
theorem mem_classify_cases (hw : app.WellFormed) {c : ClassifiedRoute} (hc : c ∈ app.source.classify settings) :
    (∃ r ∈ app.routes, ∃ handler, c = ⟨.api, c.group, none, c.name, r.rule, settings.allowedMethods r.methods,
      some handler⟩ ∧ ShownFunction settings app r c.group c.name) ∨
    ∃ r ∈ app.routes, ∃ resource, app.resource c.group = some resource ∧ resource.name = c.group ∧
      (∃ handler, app.handler r.endpoint = some handler ∧ handler.viewClass = some c.group) ∧
      c ∈ r.classifyResource settings resource := by
  obtain ⟨r, hr, hcr⟩ := List.mem_flatMap.mp hc
  obtain ⟨handler, hh⟩ := Option.isSome_iff_exists.mp (hw.handler_isSome r hr)
  cases hv : handler.viewClass with
  | none =>
    rw [classify_of_function hh hv] at hcr
    obtain ⟨hs, he⟩ := (mem_classifyFunction_iff hh hv c).mp hcr
    exact .inl ⟨r, hr, handler, he, hs⟩
  | some name =>
    cases hres : app.resource name with
    | none =>
      have hs : app.source.handler r.endpoint = some handler := hh
      have hrs : app.source.resource name = none := hres
      simp [Route.classify, hs, hv, hrs] at hcr
    | some resource =>
      rw [classify_of_resource hh hv hres] at hcr
      have hg : c.group = resource.name := by
        rw [((mem_classifyResource_iff r resource c).mp hcr).2.2]
      have hn := hw.resource_name name resource hres
      rw [hn] at hg
      exact .inr ⟨r, hr, resource, hg ▸ hres, hn.trans hg.symm, ⟨handler, hh, hg ▸ hv⟩, hcr⟩

section
variable (hw : app.WellFormed) (hv : settings.validate = .ok ())
include hw hv

/-- The classified routes of one name are of one kind. -/
theorem kind_of_mem_classify {c : ClassifiedRoute} (hc : c ∈ app.source.classify settings) :
    c.kind = .restfulApi ↔ c.name ∈ Settings.httpMethods := by
  rcases mem_classify_cases hw hc with ⟨r, _, handler, he, hs⟩ | ⟨r, hr, resource, _, _, _, hcr⟩
  · obtain ⟨h, _, _, _, hn⟩ := hs.handled
    refine ⟨fun hk => ?_, fun hm => absurd hn (humanize_ne_method h.name hm)⟩
    rw [he] at hk
    cases hk
  · obtain ⟨_, hm, he⟩ := (mem_classifyResource_iff r resource c).mp hcr
    refine ⟨fun _ => ?_, fun _ => by rw [he]⟩
    exact Settings.methodsList_of_validate hv _
      ((Settings.mem_allowedMethods hv (hw.upperMethod_eq r hr) _).mp hm).1

theorem kind_eq_of_name_eq {c d : ClassifiedRoute} (hc : c ∈ app.source.classify settings)
    (hd : d ∈ app.source.classify settings) (hn : c.name = d.name) : c.kind = d.kind := by
  have hk : c.kind = .restfulApi ↔ d.kind = .restfulApi := by
    rw [kind_of_mem_classify hw hv hc, kind_of_mem_classify hw hv hd, hn]
  cases hc : c.kind <;> cases hd : d.kind <;> simp_all

/-- Whether a classified route has a handler depends on its group and name alone. -/
theorem handler_isSome_of_mem_classify {c d : ClassifiedRoute} (hc : c ∈ app.source.classify settings)
    (hd : d ∈ app.source.classify settings) (hg : c.group = d.group) (hn : c.name = d.name)
    (hs : c.handler.isSome) : d.handler.isSome := by
  have hk := kind_eq_of_name_eq hw hv hc hd hn
  rcases mem_classify_cases hw hd with ⟨_, _, handler, he, _⟩ | ⟨r, _, resource, hres, _, _, hdr⟩
  · rw [he, Option.isSome_some]
  · have hed := ((mem_classifyResource_iff r resource d).mp hdr).2.2
    rcases mem_classify_cases hw hc with ⟨_, _, _, he, _⟩ | ⟨r', _, resource', hres', _, _, hcr⟩
    · rw [he, hed] at hk
      cases hk
    · rw [hg, hres] at hres'
      obtain rfl := Option.some.inj hres'
      rw [((mem_classifyResource_iff r' resource c).mp hcr).2.2] at hs
      rw [hed, ← hn]
      exact hs

omit hv in
/-- The classified routes of plain handlers are what the routes of shown functions give. -/
theorem exists_shownFunction_iff (group name : String) (p : String → List String → Prop) :
    (∃ c ∈ app.source.classify settings, c.kind = .api ∧ c.group = group ∧ c.name = name ∧ c.handler.isSome ∧
      p c.url c.methods) ↔
      ∃ r ∈ app.routes, ShownFunction settings app r group name ∧ p r.rule (settings.allowedMethods r.methods) := by
  constructor
  · rintro ⟨c, hc, hk, rfl, rfl, -, hp⟩
    rcases mem_classify_cases hw hc with ⟨r, hr, handler, he, hs⟩ | ⟨r, _, resource, _, _, _, hcr⟩
    · rw [he] at hp
      exact ⟨r, hr, hs, hp⟩
    · rw [((mem_classifyResource_iff r resource c).mp hcr).2.2] at hk
      cases hk
  · rintro ⟨r, hr, hs, hp⟩
    obtain ⟨handler, hh, hview, _⟩ := hs.handled
    refine ⟨⟨.api, group, none, name, r.rule, settings.allowedMethods r.methods, some handler⟩, ?_, rfl, rfl, rfl,
      rfl, hp⟩
    refine List.mem_flatMap.mpr ⟨r, hr, ?_⟩
    rw [classify_of_function hh hview]
    exact (mem_classifyFunction_iff hh hview _).mpr ⟨hs, rfl⟩

/-- The classified routes of bound methods are what the routes of shown resources give. -/
theorem exists_shownResource_iff (name verb : String) (p : String → Prop) :
    (∃ c ∈ app.source.classify settings, c.kind = .restfulApi ∧ c.group = name ∧ c.name = verb ∧ c.handler.isSome ∧
      p c.url) ↔
      ∃ r ∈ app.routes, ShownResource settings app r name verb ∧ p r.rule := by
  constructor
  · rintro ⟨c, hc, hk, rfl, rfl, hs, hp⟩
    rcases mem_classify_cases hw hc with ⟨_, _, _, he, _⟩ | ⟨r, hr, resource, hres, hn, hd, hcr⟩
    · rw [he] at hk
      cases hk
    · obtain ⟨⟨hname, hendpoint⟩, hm, he⟩ := (mem_classifyResource_iff r resource c).mp hcr
      obtain ⟨hl, ha⟩ := (Settings.mem_allowedMethods hv (hw.upperMethod_eq r hr) _).mp hm
      rw [he] at hs hp
      exact ⟨r, hr, ⟨hd, ⟨resource, hres, hs⟩, hn ▸ hname, hendpoint, hl, ha⟩, hp⟩
  · rintro ⟨r, hr, ⟨⟨handler, hh, hview⟩, ⟨resource, hres, hs⟩, hname, hendpoint, hl, ha⟩, hp⟩
    obtain rfl := hw.resource_name name resource hres
    refine ⟨⟨.restfulApi, resource.name, resource.doc, verb, r.rule, [verb], resource.handler verb⟩, ?_, rfl, rfl,
      rfl, hs, hp⟩
    refine List.mem_flatMap.mpr ⟨r, hr, ?_⟩
    rw [classify_of_resource hh hview hres]
    exact (mem_classifyResource_iff r resource _).mpr
      ⟨⟨hname, hendpoint⟩, (Settings.mem_allowedMethods hv (hw.upperMethod_eq r hr) _).mpr ⟨hl, ha⟩, rfl⟩

/-- The classified routes that an entry is made of: all those of its group and name, and they are of its kind. -/
theorem exists_first_later_iff {group name : String} {kind : ApiKind} {e : Entry}
    (h : IsChild (Aggregate.build settings app.source) group name kind e) :
    ∃ first handler later, first.kind = kind ∧ e = mergedEntry settings first handler later ∧
      ∀ c, c ∈ first :: later ↔ c ∈ app.source.classify settings ∧ c.kind = kind ∧ c.group = group ∧ c.name = name ∧
        c.handler.isSome := by
  obtain ⟨first, handler, later, ho, hk, he⟩ := opens_of_isChild h
  have hf : first ∈ app.source.classify settings := by
    obtain ⟨before, after, hsplit, -⟩ := ho.split
    simp [hsplit]
  have hs (c : ClassifiedRoute) (hc : c ∈ app.source.classify settings) (hg : c.group = group) (hn : c.name = name) :
      c.handler.isSome :=
    handler_isSome_of_mem_classify hw hv hf hc (ho.group_eq.trans hg.symm) (ho.name_eq.trans hn.symm)
      (by rw [ho.handler_eq, Option.isSome_some])
  refine ⟨first, handler, later, hk, he, fun c => ?_⟩
  rw [ho.mem_iff hs]
  constructor
  · rintro ⟨hc, hg, hn⟩
    exact ⟨hc, (kind_eq_of_name_eq hw hv hc hf (hn.trans ho.name_eq.symm)).trans hk, hg, hn, hs c hc hg hn⟩
  · rintro ⟨hc, -, hg, hn, -⟩
    exact ⟨hc, hg, hn⟩

theorem exists_word_iff (group name : String) (kind : ApiKind) (w : List Char) :
    (∃ e, IsChild (Aggregate.build settings app.source) group name kind e ∧ w ∈ words e.url.toList) ↔
      ∃ c ∈ app.source.classify settings, c.kind = kind ∧ c.group = group ∧ c.name = name ∧ c.handler.isSome ∧
        w ∈ words c.url.toList := by
  constructor
  · rintro ⟨e, h, hwords⟩
    obtain ⟨first, handler, later, _, rfl, hmem⟩ := exists_first_later_iff hw hv h
    obtain ⟨t, ht, hwt⟩ := (mem_words_united w _ _).mp hwords
    rw [← List.map_cons] at ht
    obtain ⟨c, hc, rfl⟩ := List.mem_map.mp ht
    obtain ⟨hcm, hck, hcg, hcn, hcs⟩ := (hmem c).mp hc
    exact ⟨c, hcm, hck, hcg, hcn, hcs, hwt⟩
  · rintro ⟨c, hc, rfl, rfl, rfl, hs, hwc⟩
    obtain ⟨kind, e, h⟩ := exists_isChild hc hs
    obtain ⟨first, handler, later, _, rfl, hmem⟩ := exists_first_later_iff hw hv h
    obtain ⟨hfm, rfl, -, hfn, -⟩ := (hmem first).mp (by simp)
    have hkind := kind_eq_of_name_eq hw hv hfm hc hfn
    have hin := (hmem c).mpr ⟨hc, hkind.symm, rfl, rfl, hs⟩
    have hurl : c.url ∈ first.url :: later.map ClassifiedRoute.url := List.mem_map_of_mem hin
    rw [hkind] at h
    exact ⟨_, h, (mem_words_united w _ _).mpr ⟨c.url, hurl, hwc⟩⟩

/-- The methods of an entry for a plain handler are those of the routes it is made of. -/
theorem method_word_iff {group name : String} {e : Entry}
    (h : IsChild (Aggregate.build settings app.source) group name .api e) :
    ∃ method, e.method = some method ∧ ∀ w, w ∈ words method.toList ↔
      ∃ c ∈ app.source.classify settings, c.kind = .api ∧ c.group = group ∧ c.name = name ∧ c.handler.isSome ∧
        w ∈ c.methods.flatMap fun method => words method.toList := by
  obtain ⟨first, handler, later, hk, rfl, hmem⟩ := exists_first_later_iff hw hv h
  refine ⟨_, by rw [mergedEntry, hk], fun w => ?_⟩
  have hcons : joinMethods first.methods :: later.map (fun r => joinMethods r.methods) =
      (first :: later).map fun r => joinMethods r.methods := rfl
  rw [mem_words_united, hcons]
  simp only [← words_joinMethods]
  constructor
  · rintro ⟨t, ht, hwt⟩
    obtain ⟨c, hc, rfl⟩ := List.mem_map.mp ht
    obtain ⟨hcm, hck, hcg, hcn, hcs⟩ := (hmem c).mp hc
    exact ⟨c, hcm, hck, hcg, hcn, hcs, hwt⟩
  · rintro ⟨c, hcm, hck, hcg, hcn, hcs, hwc⟩
    exact ⟨_, List.mem_map_of_mem ((hmem c).mpr ⟨hcm, hck, hcg, hcn, hcs⟩), hwc⟩

omit hw in
/-- The words of shown methods are the shown methods. -/
theorem mem_words_allowedMethods {methods : List String} (hm : ∀ method ∈ methods, upperMethod method = method)
    (verb : String) :
    (verb.toList ∈ (settings.allowedMethods methods).flatMap fun method => words method.toList) ↔
      verb ∈ methods ∧ verb ∈ settings.methodsList := by
  have hwords (method : String) (h : method ∈ settings.allowedMethods methods) :
      words method.toList = [method.toList] :=
    Settings.words_of_mem_httpMethods method
      (Settings.methodsList_of_validate hv method ((Settings.mem_allowedMethods hv hm method).mp h).1)
  rw [and_comm, ← Settings.mem_allowedMethods hv hm, List.mem_flatMap]
  constructor
  · rintro ⟨method, h, hverb⟩
    rw [hwords method h, List.mem_singleton, String.toList_inj] at hverb
    rwa [hverb]
  · intro h
    exact ⟨verb, h, by rw [hwords verb h]; exact List.mem_singleton_self _⟩

end

/-- The documentation shows exactly the URLs and methods of the routes that the settings ask for. -/
theorem aggregate_shows (calls : List Registration) (settings : Settings) (hv : settings.validate = .ok ()) :
    let app := Application.ofRegistrations calls
    let aggregate := Aggregate.build settings app.source
    (∀ group name url, (∃ e, IsChild aggregate group name .api e ∧ url ∈ words e.url.toList) ↔
      ∃ r ∈ app.routes, ShownFunction settings app r group name ∧ url ∈ words r.rule.toList) ∧
    (∀ group name e, IsChild aggregate group name .api e → ∃ method, e.method = some method ∧
      ∀ verb : String, verb.toList ∈ words method.toList ↔
        ∃ r ∈ app.routes, ShownFunction settings app r group name ∧ verb ∈ r.methods ∧
          verb ∈ settings.methodsList) ∧
    ∀ name verb url, (∃ e, IsChild aggregate name verb .restfulApi e ∧ url ∈ words e.url.toList) ↔
      ∃ r ∈ app.routes, ShownResource settings app r name verb ∧ url ∈ words r.rule.toList := by
  intro app aggregate
  have hw : app.WellFormed := Application.ofRegistrations_wellFormed calls
  refine ⟨fun group name url => ?_, fun group name e he => ?_, fun name verb url => ?_⟩
  · rw [exists_word_iff hw hv]
    exact exists_shownFunction_iff hw group name fun rule _ => url ∈ words rule.toList
  · obtain ⟨method, hm, hwords⟩ := method_word_iff hw hv he
    refine ⟨method, hm, fun verb => ?_⟩
    rw [hwords, exists_shownFunction_iff hw group name fun _ methods =>
      verb.toList ∈ methods.flatMap fun method => words method.toList]
    refine exists_congr fun r => and_congr_right fun hr => and_congr_right fun _ => ?_
    exact mem_words_allowedMethods hv (hw.upperMethod_eq r hr) verb
  · rw [exists_word_iff hw hv]
    exact exists_shownResource_iff hw hv name verb fun rule => url ∈ words rule.toList

/-- A function of a documented module is shown with its rule. -/
theorem list_all_shown :
    ∃ e, IsChild (Aggregate.build { member := ["shop"] } (Application.ofRegistrations
      [.routeWithEndpoint "/goods" ["get"] "shop.list_all" { name := "list_all" }]).source) "Shop" "List All" .api e ∧
        "/goods".toList ∈ words e.url.toList := by
  refine ((aggregate_shows _ { member := ["shop"] } (by decide)).1 _ _ _).mpr
    ⟨⟨"/goods", ["GET"], "shop.list_all"⟩, by decide, ⟨?_, by decide, by decide, by decide, by decide⟩, by decide⟩
  exact ⟨{ name := "list_all" }, by decide, rfl, by decide, by decide⟩

end ApiHandbook
