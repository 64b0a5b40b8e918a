import ApiHandbook.Proofs.Visibility

/-! The kinds of the entries of a group. The first route of a group decides of which kind the group is and what stands
behind its name, whatever routes follow: the names of modules and those of resource classes share one namespace. -/
namespace ApiHandbook
open Text

/-- The line that explains a resource, empty when it has no docstring. -/
def Resource.summaryLine (settings : Settings) (resource : Resource) : String :=
  match resource.doc with
  | some doc => (settings.docstring doc).summary
  | none => ""

/-- Whether all entries of a group are of its kind, and those of a resource stand under its summary line. -/
structure Group.Homogeneous (settings : Settings) (app : Application) (g : Group) : Prop where
  kind_eq : ∀ e ∈ g.children, e.kind = g.kind
  nameExtra_eq : ∀ e ∈ g.children, e.kind = .restfulApi →
    ∃ resource, app.resource g.name = some resource ∧ g.nameExtra = resource.summaryLine settings

variable {settings : Settings}

/-- A group is what its first route opened, with the entries of all its routes. -/
theorem exists_opening_of_mem_build {source : RouteSource} {g : Group} (h : g ∈ Aggregate.build settings source) :
    ∃ first later, routesOfGroup (source.classify settings) g.name = first :: later ∧ g.kind = first.kind ∧
      g.nameExtra = (Group.opened settings first).nameExtra := by
  rw [Aggregate.build_eq] at h
  obtain ⟨opened, hopened, rfl⟩ := List.mem_map.mp h
  obtain ⟨first, hhead, hgroup⟩ := (Aggregate.mem_gather_groups settings source opened).mp (List.mem_of_mem_filter hopened)
  obtain ⟨later, hroutes⟩ := List.head?_eq_some_iff.mp hhead
  have hkind : opened.kind = first.kind := by rw [hgroup]; rfl
  have hextra : opened.nameExtra = (Group.opened settings first).nameExtra := by rw [hgroup]
  exact ⟨first, later, hroutes, hkind, hextra⟩

theorem isChild_of_name_eq {source : RouteSource} {g : Group} (hg : g ∈ Aggregate.build settings source) {name : String}
    {kind : ApiKind} {e : Entry} (h : IsChild (Aggregate.build settings source) g.name name kind e) : e ∈ g.children := by
  obtain ⟨⟨other, hother, hname, he⟩, -, -⟩ := h
  rw [(Aggregate.children_of_mem_build settings source hother).1, hname] at he
  rwa [(Aggregate.children_of_mem_build settings source hg).1]

variable {app : Application}

section
variable (hw : app.WellFormed)
include hw

/-- The kind of a classified route of a resource, and the explanation of the group that it opens. -/
theorem nameExtra_opened {c : ClassifiedRoute} (hc : c ∈ app.source.classify settings) (hkind : c.kind = .restfulApi) :
    ∃ resource, app.resource c.group = some resource ∧
      (Group.opened settings c).nameExtra = resource.summaryLine settings := by
  rcases mem_classify_cases hw hc with ⟨_, _, _, heq, _⟩ | ⟨r, _, resource, hresource, -, -, hclassified⟩
  · rw [heq] at hkind
    cases hkind
  · refine ⟨resource, hresource, ?_⟩
    rw [((mem_classifyResource_iff r resource c).mp hclassified).2.2]
    rfl

/-- Routes of different kinds in one group belong to a documented module and to a resource class of that name. -/
theorem exists_member_of_kind_ne {c d : ClassifiedRoute} (hc : c ∈ app.source.classify settings)
    (hd : d ∈ app.source.classify settings) (hgroup : c.group = d.group) (hkind : c.kind ≠ d.kind) :
    ∃ module ∈ settings.member, mapped capitalize module = c.group ∧ (app.resource c.group).isSome := by
  rcases mem_classify_cases hw hc with ⟨r, _, handler, hcr, hshown⟩ | ⟨r, _, resource, hresource, -, -, hcr⟩
  · rcases mem_classify_cases hw hd with ⟨_, _, _, hdr, _⟩ | ⟨_, _, resource, hresource, -, -, -⟩
    · rw [hcr, hdr] at hkind
      exact absurd rfl hkind
    · exact ⟨_, hshown.member, hshown.group_eq, by rw [hgroup, hresource]; rfl⟩
  · rcases mem_classify_cases hw hd with ⟨_, _, _, _, hshown⟩ | ⟨r', _, resource', -, -, -, hdr⟩
    · exact ⟨_, hshown.member, hshown.group_eq.trans hgroup.symm, by rw [hresource]; rfl⟩
    · rw [((mem_classifyResource_iff r resource c).mp hcr).2.2,
        ((mem_classifyResource_iff r' resource' d).mp hdr).2.2] at hkind
      exact absurd rfl hkind

variable (hv : settings.validate = .ok ())
include hv

/-- The kinds of the entries of a group are those of its routes with a handler. -/
theorem forall_kind_iff {g : Group} (hg : g ∈ Aggregate.build settings app.source) (kind : ApiKind) :
    (∀ e ∈ g.children, e.kind = kind) ↔
      ∀ c ∈ routesOfGroup (app.source.classify settings) g.name, c.handler.isSome → c.kind = kind := by
  have hfirst {e : Entry} (he : e ∈ g.children) : ∃ first ∈ app.source.classify settings, first.group = g.name ∧
      first.name = e.name ∧ first.handler.isSome ∧ first.kind = e.kind := by
    have hchild : IsChild (Aggregate.build settings app.source) g.name e.name e.kind e := ⟨⟨g, hg, rfl, he⟩, rfl, rfl⟩
    obtain ⟨first, handler, later, hopens, hkind, -⟩ := opens_of_isChild hchild
    obtain ⟨before, after, hsplit, -⟩ := hopens.split
    exact ⟨first, by simp [hsplit], hopens.group_eq, hopens.name_eq, by simp [hopens.handler_eq], hkind⟩
  constructor
  · intro h c hc hhandler
    obtain ⟨hmem, hgroup⟩ := List.mem_filter.mp hc
    obtain ⟨k, e, hchild⟩ := exists_isChild hmem hhandler
    have he := isChild_of_name_eq hg (of_decide_eq_true hgroup ▸ hchild)
    obtain ⟨first, hfirstMem, -, hname, -, hkind⟩ := hfirst he
    rw [kind_eq_of_name_eq hw hv hmem hfirstMem (hchild.2.1.symm.trans hname.symm), hkind, h e he]
  · intro h e he
    obtain ⟨first, hmem, hgroup, -, hhandler, hkind⟩ := hfirst he
    rw [← hkind]
    exact h first (List.mem_filter.mpr ⟨hmem, decide_eq_true hgroup⟩) hhandler

theorem homogeneous_iff_kinds {g : Group} (hg : g ∈ Aggregate.build settings app.source) :
    g.Homogeneous settings app ↔
      ∀ c ∈ routesOfGroup (app.source.classify settings) g.name, c.handler.isSome → c.kind = g.kind := by
  rw [← forall_kind_iff hw hv hg]
  refine ⟨Group.Homogeneous.kind_eq, fun h => ⟨h, fun e he hkind => ?_⟩⟩
  obtain ⟨first, later, hroutes, hfirst, hextra⟩ := exists_opening_of_mem_build hg
  have hmem : first ∈ routesOfGroup (app.source.classify settings) g.name := by simp [hroutes]
  obtain ⟨hclassify, hgroup⟩ := List.mem_filter.mp hmem
  obtain ⟨resource, hresource, hline⟩ :=
    nameExtra_opened hw hclassify (hfirst.symm.trans ((h e he).symm.trans hkind))
  exact ⟨resource, of_decide_eq_true hgroup ▸ hresource, hextra.trans hline⟩

end

/-- The first route of a group gives its kind and its explanation, and the group is homogeneous just when all its routes
with a handler are of that kind. All groups are if no documented module has a name that, capitalized, is that of a
resource. -/
theorem groups_homogeneous_iff (calls : List Registration) (settings : Settings) (hv : settings.validate = .ok ()) :
    let app := Application.ofRegistrations calls
    let aggregate := Aggregate.build settings app.source
    (∀ g ∈ aggregate, ∃ first later, routesOfGroup (app.source.classify settings) g.name = first :: later ∧
      g.kind = first.kind ∧ g.nameExtra = (Group.opened settings first).nameExtra ∧
      (g.Homogeneous settings app ↔ ∀ c ∈ first :: later, c.handler.isSome → c.kind = first.kind)) ∧
    ((∀ module ∈ settings.member, app.resource (mapped capitalize module) = none) →
      ∀ g ∈ aggregate, g.Homogeneous settings app) := by
  intro app aggregate
  have hw : app.WellFormed := Application.ofRegistrations_wellFormed calls
  refine ⟨fun g hg => ?_, fun hmember g hg => ?_⟩
  · obtain ⟨first, later, hroutes, hkind, hextra⟩ := exists_opening_of_mem_build hg
    exact ⟨first, later, hroutes, hkind, hextra, by rw [homogeneous_iff_kinds hw hv hg, hroutes, hkind]⟩
  · obtain ⟨first, later, hroutes, hkind, -⟩ := exists_opening_of_mem_build hg
    refine (homogeneous_iff_kinds hw hv hg).mpr fun c hc _ => ?_
    by_contra hne
    have hfirst : first ∈ routesOfGroup (app.source.classify settings) g.name := by simp [hroutes]
    obtain ⟨hcm, hcg⟩ := List.mem_filter.mp hc
    obtain ⟨hfm, hfg⟩ := List.mem_filter.mp hfirst
    obtain ⟨module, hmodule, hname, hsome⟩ := exists_member_of_kind_ne hw hcm hfm
      ((of_decide_eq_true hcg).trans (of_decide_eq_true hfg).symm) fun h => hne (h.trans hkind.symm)
    rw [← hname, hmember module hmodule] at hsome
    cases hsome

/-- A function of a module, and a resource class. -/
def todoCalls (endpoint : String) : List Registration :=
  [.routeWithEndpoint "/todo/list" ["get"] endpoint { name := "list" },
    .addResource { name := "Todo", doc := some "Manage todos", bindings := [("GET", { name := "get" })] } ["/todos"]]

def todoSettings (module : String) : Settings := { member := [module] }

def todoClassified (group : String) : List ClassifiedRoute :=
  [⟨.api, group, none, "List", "/todo/list", ["GET"], some { name := "list" }⟩,
    ⟨.restfulApi, "Todo", some "Manage todos", "GET", "/todos", ["GET"], some { name := "get" }⟩]

theorem exists_group_todo {app : Application} {settings : Settings} {group : String}
    (hclassify : app.source.classify settings = todoClassified group) :
    ∃ g ∈ Aggregate.build settings app.source, g.name = "Todo" := by
  obtain ⟨c, hc, hgroup, hhandler⟩ : ∃ c ∈ app.source.classify settings, c.group = "Todo" ∧ c.handler.isSome := by
    rw [hclassify]
    exact ⟨_, .tail _ (.head _), rfl, rfl⟩
  obtain ⟨_, _, ⟨g, hg, hname, _⟩, _⟩ := exists_isChild hc hhandler
  exact ⟨g, hg, hname.trans hgroup⟩

/-- A module and a resource class of unrelated names have a group each. -/
theorem plans_and_todos_homogeneous :
    let app := Application.ofRegistrations (todoCalls "plans.list")
    let settings := todoSettings "plans"
    settings.validate = .ok () ∧ (∀ module ∈ settings.member, app.resource (mapped capitalize module) = none) ∧
      (∀ g ∈ Aggregate.build settings app.source, g.Homogeneous settings app) ∧
      ∃ g ∈ Aggregate.build settings app.source, g.name = "Todo" ∧ g.kind = .restfulApi ∧
        g.nameExtra = "Manage todos" := by
  intro app settings
  have hv : settings.validate = .ok () := by decide
  have hmember : ∀ module ∈ settings.member, app.resource (mapped capitalize module) = none := by decide
  have hclassify : app.source.classify settings = todoClassified "Plans" := by decide
  have hsummary : (settings.docstring "Manage todos").summary = "Manage todos" := by decide
  obtain ⟨hopening, hhomogeneous⟩ := groups_homogeneous_iff (todoCalls "plans.list") settings hv
  obtain ⟨g, hg, hname⟩ := exists_group_todo hclassify
  obtain ⟨first, later, hroutes, hkind, hextra, -⟩ := hopening g hg
  rw [hclassify, hname] at hroutes
  obtain ⟨rfl, -⟩ := List.cons.inj hroutes
  exact ⟨hv, hmember, hhomogeneous hmember, g, hg, hname, hkind, hextra.trans hsummary⟩

/-- Of a module and a resource class that share a name, the module is registered first: their group is one of functions,
without a word about the resource whose method it lists. -/
theorem todos_in_group_of_functions :
    let app := Application.ofRegistrations (todoCalls "todo.list")
    let settings := todoSettings "todo"
    settings.validate = .ok () ∧
      ∃ g ∈ Aggregate.build settings app.source, ¬ g.Homogeneous settings app ∧ g.name = "Todo" ∧ g.kind = .api ∧
        g.nameExtra = "" ∧ (∃ e ∈ g.children, e.kind = .restfulApi) ∧
        ∃ resource, app.resource "Todo" = some resource ∧ resource.summaryLine settings = "Manage todos" := by
  intro app settings
  have hv : settings.validate = .ok () := by decide
  have hw : app.WellFormed := Application.ofRegistrations_wellFormed _
  have hclassify : app.source.classify settings = todoClassified "Todo" := by decide
  obtain ⟨g, hg, hname⟩ := exists_group_todo hclassify
  obtain ⟨first, later, hroutes, hkind, hextra⟩ := exists_opening_of_mem_build hg
  rw [hclassify, hname] at hroutes
  obtain ⟨rfl, -⟩ := List.cons.inj hroutes
  have hmixed : ¬ ∀ e ∈ g.children, e.kind = .api := by
    rw [forall_kind_iff hw hv hg, hclassify, hname]
    decide
  obtain ⟨e, he, hne⟩ : ∃ e ∈ g.children, e.kind ≠ .api := by simpa using hmixed
  have hrestful : e.kind = .restfulApi := by
    cases h : e.kind
    · exact absurd h hne
    · rfl
  have hhomogeneous : ¬ g.Homogeneous settings app := fun h => hne ((h.kind_eq e he).trans hkind)
  exact ⟨hv, g, hg, hhomogeneous, hname, hkind, hextra, ⟨e, he, hrestful⟩, _, rfl, by decide⟩

end ApiHandbook
