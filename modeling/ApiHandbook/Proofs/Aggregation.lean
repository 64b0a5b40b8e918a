import ApiHandbook.Proofs.ByteOrder
import ApiHandbook.Proofs.Words

/-! What the aggregate of an application's routes is, in terms of the classified routes alone: which groups and entries
there are, in which order, and which routes each entry is made of. -/
namespace ApiHandbook
open Text

variable (settings : Settings)

/-- The entries of a group, one for each name. -/
def entryGathering : Gathering ClassifiedRoute Entry where
  key := Entry.name
  target := ClassifiedRoute.name
  merge := Entry.merged
  opened r := r.handler.map (Entry.opened settings r)
  key_merge _ _ := rfl
  key_opened r e h := by
    obtain ⟨handler, _, rfl⟩ := Option.map_eq_some_iff.mp h
    rfl

/-- The groups, one for each name; every route can open its group. -/
def groupGathering : Gathering ClassifiedRoute Group where
  key := Group.name
  target := ClassifiedRoute.group
  merge g r := g.add settings r
  opened r := some ((Group.opened settings r).add settings r)
  key_merge _ _ := rfl
  key_opened r g h := by
    obtain rfl := Option.some.inj h
    rfl

@[simp] theorem entryGathering_opened (r : ClassifiedRoute) :
    (entryGathering settings).opened r = r.handler.map (Entry.opened settings r) := rfl

theorem addEntry_eq_add (r : ClassifiedRoute) (entries : List Entry) :
    addEntry settings r entries = (entryGathering settings).add r entries := by
  induction entries with
  | nil =>
    rw [addEntry, Gathering.add, entryGathering_opened]
    cases r.handler <;> rfl
  | cons e rest ih =>
    rw [addEntry, Gathering.add, ih]
    rfl

theorem Aggregate.add_eq_add (r : ClassifiedRoute) (groups : Aggregate) :
    Aggregate.add settings r groups = (groupGathering settings).add r groups := by
  induction groups with
  | nil => rfl
  | cons g rest ih =>
    rw [Aggregate.add, Gathering.add, ih]
    rfl

theorem foldl_groupAdd (routes : List ClassifiedRoute) (g : Group) :
    routes.foldl (fun g r => Group.add settings r g) g =
      { g with children := routes.foldl (fun entries r => (entryGathering settings).add r entries) g.children } := by
  induction routes generalizing g with
  | nil => rfl
  | cons r routes ih => rw [List.foldl_cons, ih, List.foldl_cons, Group.add, addEntry_eq_add]

theorem foldl_merged (routes : List ClassifiedRoute) (e : Entry) :
    routes.foldl Entry.merged e =
      { e with
        url := united e.url (routes.map ClassifiedRoute.url)
        method := e.method.map fun method => united method (routes.map fun r => joinMethods r.methods) } := by
  simp only [← foldl_unionWords]
  induction routes generalizing e with
  | nil => cases e with | mk _ _ _ method => cases method <;> rfl
  | cons r routes ih =>
    rw [List.foldl_cons, ih, Entry.merged]
    simp [Option.map_map, Function.comp_def]

/-- The routes that belong to a group. -/
def routesOfGroup (routes : List ClassifiedRoute) (group : String) : List ClassifiedRoute :=
  routes.filter fun r => r.group = group

/-- A group is opened by its first route and holds the entries that its routes make. -/
theorem entryOf_groups (routes : List ClassifiedRoute) (group : String) :
    (groupGathering settings).entryOf routes group =
      (routesOfGroup routes group).head?.map fun r =>
        { Group.opened settings r with
          children := (entryGathering settings).gather (routesOfGroup routes group) } := by
  change (routesOfGroup routes group).foldl _ none = _
  cases routesOfGroup routes group with
  | nil => rfl
  | cons r later =>
    rw [List.foldl_cons]
    change later.foldl _ (some ((Group.opened settings r).add settings r)) = _
    rw [Gathering.foldl_next_some]
    change some (later.foldl (fun g r => Group.add settings r g) _) = _
    rw [foldl_groupAdd, Group.add, addEntry_eq_add]
    rfl

/-- The first route with a handler that bears a group and a name, with its handler and all routes of the same group and
name after it. -/
structure Opens (routes : List ClassifiedRoute) (group name : String) (first : ClassifiedRoute) (handler : Handler)
    (later : List ClassifiedRoute) : Prop where
  group_eq : first.group = group
  name_eq : first.name = name
  handler_eq : first.handler = some handler
  split : ∃ before after, routes = before ++ first :: after ∧
    (∀ r ∈ before, r.group = group → r.name = name → r.handler = none) ∧
    later = after.filter fun r => r.group = group ∧ r.name = name

theorem Opens.mem_iff {routes : List ClassifiedRoute} {group name : String} {first : ClassifiedRoute} {handler : Handler}
    {later : List ClassifiedRoute} (h : Opens routes group name first handler later)
    (hs : ∀ r ∈ routes, r.group = group → r.name = name → r.handler.isSome) (r : ClassifiedRoute) :
    r ∈ first :: later ↔ r ∈ routes ∧ r.group = group ∧ r.name = name := by
  obtain ⟨before, after, rfl, hb, rfl⟩ := h.split
  rw [List.mem_cons, List.mem_filter, decide_eq_true_eq]
  constructor
  · rintro (rfl | ⟨hr, hk⟩)
    · exact ⟨by simp, h.group_eq, h.name_eq⟩
    · exact ⟨by simp [hr], hk⟩
  · rintro ⟨hr, hg, hn⟩
    rcases List.mem_append.mp hr with hm | hm
    · have := hs r hr hg hn
      rw [hb r hm hg hn] at this
      cases this
    · exact (List.mem_cons.mp hm).imp_right fun hm => ⟨hm, hg, hn⟩

/-- The entry that a first route and the later ones make: they unite their URLs and methods, all else is the first one's.
The docstring of a method gives its title apart from its body; that of a function is kept in one. -/
def mergedEntry (first : ClassifiedRoute) (handler : Handler) (later : List ClassifiedRoute) : Entry :=
  let parts := settings.docstring (handler.docstring.getD "")
  { name := first.name
    nameExtra := match first.kind with | .api => "" | .restfulApi => parts.summary
    url := united first.url (later.map ClassifiedRoute.url)
    method := match first.kind with
      | .api => some (united (joinMethods first.methods) (later.map fun r => joinMethods r.methods))
      | .restfulApi => none
    doc := match first.kind with | .api => parts.prose | .restfulApi => parts.body
    docMd := settings.markdownBlock handler parts.markdown
    router := first.group
    kind := first.kind }

theorem foldl_merged_opened (first : ClassifiedRoute) (handler : Handler) (later : List ClassifiedRoute) :
    later.foldl Entry.merged (Entry.opened settings first handler) = mergedEntry settings first handler later := by
  rw [foldl_merged, mergedEntry, Entry.opened]
  cases first.kind <;> rfl

theorem filter_routesOfGroup (routes : List ClassifiedRoute) (group name : String) :
    (routesOfGroup routes group).filter (fun r => r.name = name) =
      routes.filter fun r => r.group = group ∧ r.name = name := by
  rw [routesOfGroup, List.filter_filter]
  congr 1
  funext r
  simp [Bool.and_comm]

/-- An entry is what the first route with a handler and the later routes of its group and name make. -/
theorem exists_opens_of_mem {routes : List ClassifiedRoute} {group : String} {e : Entry}
    (h : e ∈ (entryGathering settings).gather (routesOfGroup routes group)) :
    ∃ first handler later, Opens routes group e.name first handler later ∧
      e = mergedEntry settings first handler later := by
  have he := ((entryGathering settings).mem_gather _ e).mp h
  change ((routesOfGroup routes group).filter fun r => r.name = e.name).foldl _ none = some e at he
  rw [filter_routesOfGroup] at he
  obtain ⟨before, first, after, c, hs, hb, ho, hc⟩ := (entryGathering settings).foldl_next_eq_some he
  obtain ⟨front, back, rfl, rfl, hback⟩ := List.filter_eq_append_iff.mp hs
  obtain ⟨middle, rest, rfl, hm, hf, rfl⟩ := List.filter_eq_cons_iff.mp hback
  obtain ⟨handler, hh, rfl⟩ := Option.map_eq_some_iff.mp ho
  have hkey := of_decide_eq_true hf
  refine ⟨first, handler, _, ⟨hkey.1, hkey.2, hh, front ++ middle, rest, by simp, ?_, rfl⟩,
    hc.trans (foldl_merged_opened settings _ _ _)⟩
  intro r hr hg hn
  rcases List.mem_append.mp hr with hr | hr
  · simpa using hb r (List.mem_filter.mpr ⟨hr, decide_eq_true ⟨hg, hn⟩⟩)
  · exact absurd (decide_eq_true ⟨hg, hn⟩) (hm r hr)

theorem names_gather (routes : List ClassifiedRoute) :
    ((entryGathering settings).gather routes).map Entry.name =
      ((routes.filter fun r => r.handler.isSome).map ClassifiedRoute.name).eraseDups := by
  have hk := (entryGathering settings).keys_gather routes
  simp only [entryGathering_opened, Option.isSome_map] at hk
  exact hk

theorem mem_names_gather (routes : List ClassifiedRoute) (group name : String) :
    name ∈ ((entryGathering settings).gather (routesOfGroup routes group)).map Entry.name ↔
      ∃ r ∈ routes, r.group = group ∧ r.name = name ∧ r.handler.isSome := by
  simp only [names_gather, routesOfGroup, List.mem_eraseDups, List.mem_map, List.mem_filter, decide_eq_true_eq]
  constructor
  · rintro ⟨r, ⟨⟨hr, hg⟩, hh⟩, hn⟩
    exact ⟨r, hr, hg, hn, hh⟩
  · rintro ⟨r, hr, hg, hn, hh⟩
    exact ⟨r, ⟨⟨hr, hg⟩, hh⟩, hn⟩

/-- Sorting keeps the entries, and puts different names in the order of their bytes. -/
theorem pairwise_sortEntries {entries : List Entry} (h : (entries.map Entry.name).Nodup) :
    ((Aggregate.sortEntries entries).map Entry.name).Pairwise fun a b => bytes a < bytes b := by
  have hp : (Aggregate.sortEntries entries).Perm entries := List.mergeSort_perm _ _
  have hs : (Aggregate.sortEntries entries).Pairwise fun a b => (!decide (b.name < a.name)) = true := by
    refine List.pairwise_mergeSort (fun a b c hab hbc => ?_) (fun a b => ?_) entries
    · simp only [Bool.not_eq_true', decide_eq_false_iff_not, String.not_lt] at hab hbc ⊢
      exact String.le_trans hab hbc
    · simp only [Bool.or_eq_true, Bool.not_eq_true', decide_eq_false_iff_not, String.not_lt]
      exact String.le_total _ _
  have hn : ((Aggregate.sortEntries entries).map Entry.name).Nodup := (hp.map Entry.name).nodup_iff.mpr h
  rw [List.pairwise_map]
  refine (hs.and (List.pairwise_map.mp hn)).imp fun {a b} hab => ?_
  obtain ⟨hle, hne⟩ := hab
  simp only [Bool.not_eq_true', decide_eq_false_iff_not] at hle
  rcases lt_trichotomy a.name b.name with hlt | heq | hgt
  · exact (lt_iff_bytes_lt _ _).mp hlt
  · exact absurd heq hne
  · exact absurd hgt hle

namespace Aggregate
variable (source : RouteSource)

/-- The entries of a group of the aggregate, before they are sorted. -/
def gathered (name : String) : List Entry :=
  (entryGathering settings).gather (routesOfGroup (source.classify settings) name)

theorem build_eq :
    build settings source =
      (((groupGathering settings).gather (source.classify settings)).filter fun g => !g.children.isEmpty).map
        fun g => { g with children := sortEntries g.children } := by
  simp only [build, add_eq_add]
  rfl

/-- A single entry has nothing to be sorted with. -/
theorem build_of_foldl {g : Group} {e : Entry}
    (h : (source.classify settings).foldl (fun groups r => add settings r groups) [] = [g]) (he : g.children = [e]) :
    build settings source = [g] := by
  obtain ⟨name, nameExtra, kind, children⟩ := g
  obtain rfl : children = [e] := he
  rw [build, h]
  simp [sortEntries]

/-- What the gathered groups are: one for each name that a route has, with the entries gathered for that name. -/
theorem mem_gather_groups (g : Group) :
    g ∈ (groupGathering settings).gather (source.classify settings) ↔
      ∃ r, (routesOfGroup (source.classify settings) g.name).head? = some r ∧
        g = { Group.opened settings r with children := gathered settings source g.name } := by
  rw [Gathering.mem_gather, entryOf_groups, Option.map_eq_some_iff]
  exact exists_congr fun r => and_congr_right fun _ => eq_comm

theorem children_of_mem_build {g : Group} (h : g ∈ build settings source) :
    g.children = sortEntries (gathered settings source g.name) ∧ gathered settings source g.name ≠ [] := by
  rw [build_eq] at h
  obtain ⟨opened, ho, rfl⟩ := List.mem_map.mp h
  obtain ⟨hg, hne⟩ := List.mem_filter.mp ho
  obtain ⟨r, _, hr⟩ := (mem_gather_groups settings source opened).mp hg
  have hc : opened.children = gathered settings source opened.name := congrArg Group.children hr
  rw [hc] at hne
  exact ⟨congrArg sortEntries hc, by simpa using hne⟩

theorem exists_mem_build {name : String} (h : gathered settings source name ≠ []) :
    ∃ g ∈ build settings source, g.name = name := by
  cases hr : routesOfGroup (source.classify settings) name with
  | nil => exact absurd (by rw [gathered, hr]; rfl) h
  | cons r later =>
    have hg : r.group = name := by
      have hm : r ∈ routesOfGroup (source.classify settings) name := by simp [hr]
      exact of_decide_eq_true (List.mem_filter.mp hm).2
    let opened : Group := { Group.opened settings r with children := gathered settings source name }
    have ho : opened ∈ (groupGathering settings).gather (source.classify settings) := by
      refine (mem_gather_groups settings source opened).mpr ⟨r, ?_, ?_⟩
      · rw [show opened.name = name from hg, hr, List.head?_cons]
      · rw [show opened.name = name from hg]
    refine ⟨{ opened with children := sortEntries opened.children }, ?_, hg⟩
    rw [build_eq]
    exact List.mem_map_of_mem (List.mem_filter.mpr ⟨ho, by simpa [opened] using h⟩)

/-- The names of the groups are a part of those that the routes give, in the same order. -/
theorem names_build_sublist :
    ((build settings source).map Group.name).Sublist
      ((source.classify settings).map ClassifiedRoute.group).eraseDups := by
  have hk := (groupGathering settings).keys_gather (source.classify settings)
  simp only [groupGathering, Option.isSome_some, List.filter_true] at hk
  rw [← hk, build_eq, List.map_map]
  exact List.Sublist.map Group.name List.filter_sublist

theorem gathered_ne_nil_iff (name : String) :
    gathered settings source name ≠ [] ↔ ∃ r ∈ source.classify settings, r.group = name ∧ r.handler.isSome := by
  have hm := mem_names_gather settings (source.classify settings) name
  constructor
  · intro h
    obtain ⟨e, he⟩ := List.exists_mem_of_ne_nil _ h
    obtain ⟨r, hr, hg, _, hh⟩ := (hm e.name).mp (List.mem_map_of_mem he)
    exact ⟨r, hr, hg, hh⟩
  · rintro ⟨r, hr, hg, hh⟩ hn
    have := (hm r.name).mpr ⟨r, hr, hg, rfl, hh⟩
    rw [show (entryGathering settings).gather _ = [] from hn] at this
    exact absurd this List.not_mem_nil

end Aggregate

/-- What the groups of an aggregate are when the classified routes are `routes`. -/
structure Summarizes (routes : List ClassifiedRoute) (groups : Aggregate) : Prop where
  group_nodup : (groups.map Group.name).Nodup
  /-- Groups stand in the order in which routes first bear their names. -/
  group_order : (groups.map Group.name).Pairwise fun a b =>
    (routes.map ClassifiedRoute.group).idxOf a < (routes.map ClassifiedRoute.group).idxOf b
  mem_groups : ∀ name, name ∈ groups.map Group.name ↔ ∃ r ∈ routes, r.group = name ∧ r.handler.isSome
  children_ne_nil : ∀ g ∈ groups, g.children ≠ []
  child_nodup : ∀ g ∈ groups, (g.children.map Entry.name).Nodup
  child_order : ∀ g ∈ groups, (g.children.map Entry.name).Pairwise fun a b => bytes a < bytes b
  router_eq : ∀ g ∈ groups, ∀ e ∈ g.children, e.router = g.name
  mem_children : ∀ group name, (∃ g ∈ groups, g.name = group ∧ ∃ e ∈ g.children, e.name = name) ↔
    ∃ r ∈ routes, r.group = group ∧ r.name = name ∧ r.handler.isSome
  child_eq : ∀ g ∈ groups, ∀ e ∈ g.children, ∃ first handler later,
    Opens routes g.name e.name first handler later ∧ e = mergedEntry settings first handler later

/-- The aggregate is determined, group by group and entry by entry, by the classified routes. -/
theorem build_summarizes (source : RouteSource) :
    Summarizes settings (source.classify settings) (Aggregate.build settings source) := by
  have hsub := Aggregate.names_build_sublist settings source
  have hperm (name : String) : (Aggregate.sortEntries (Aggregate.gathered settings source name)).Perm
      (Aggregate.gathered settings source name) := List.mergeSort_perm _ _
  have hchild {g : Group} (hg : g ∈ Aggregate.build settings source) :
      ∀ e, e ∈ g.children ↔ e ∈ Aggregate.gathered settings source g.name := by
    intro e
    rw [(Aggregate.children_of_mem_build settings source hg).1]
    exact (hperm g.name).mem_iff
  have hnodup {g : Group} : ((Aggregate.gathered settings source g.name).map Entry.name).Nodup :=
    (entryGathering settings).nodup_keys _
  have hopens {g : Group} (hg : g ∈ Aggregate.build settings source) {e : Entry} (he : e ∈ g.children) :=
    exists_opens_of_mem settings ((hchild hg e).mp he)
  refine
    { group_nodup := hsub.nodup (nodup_eraseDups _)
      group_order := (pairwise_idxOf_eraseDups _).sublist hsub
      mem_groups := fun name => ?_
      children_ne_nil := fun g hg => ?_
      child_nodup := fun g hg => ?_
      child_order := fun g hg => ?_
      router_eq := fun g hg e he => ?_
      mem_children := fun group name => ?_
      child_eq := fun g hg e he => hopens hg he }
  · rw [← Aggregate.gathered_ne_nil_iff, List.mem_map]
    constructor
    · rintro ⟨g, hg, rfl⟩
      exact (Aggregate.children_of_mem_build settings source hg).2
    · exact Aggregate.exists_mem_build settings source
  · obtain ⟨hc, hne⟩ := Aggregate.children_of_mem_build settings source hg
    rw [hc]
    intro hn
    have hp := hperm g.name
    rw [hn] at hp
    exact hne hp.symm.eq_nil
  · rw [(Aggregate.children_of_mem_build settings source hg).1]
    exact ((hperm g.name).map Entry.name).nodup_iff.mpr hnodup
  · rw [(Aggregate.children_of_mem_build settings source hg).1]
    exact pairwise_sortEntries hnodup
  · obtain ⟨first, handler, later, ho, rfl⟩ := hopens hg he
    exact ho.group_eq
  · rw [← mem_names_gather settings]
    constructor
    · rintro ⟨g, hg, rfl, e, he, rfl⟩
      exact List.mem_map_of_mem ((hchild hg e).mp he)
    · intro hn
      obtain ⟨e, he, rfl⟩ := List.mem_map.mp hn
      obtain ⟨g, hg, rfl⟩ := Aggregate.exists_mem_build settings source (List.ne_nil_of_mem he)
      exact ⟨g, hg, rfl, e, (hchild hg e).mpr he, rfl⟩

end ApiHandbook
