import ApiHandbook.Proofs.Visibility
import Mathlib.Data.List.DropRight

/-! The order of the methods of an entry. The route that opens an entry gives its methods in display order; each later
route of the same name adds the methods that are missing at the end, wherever they stand in display order. -/
namespace ApiHandbook
open Text

section Injective
variable {α β : Type} [BEq α] [LawfulBEq α] [BEq β] [LawfulBEq β] {f : α → β}

theorem contains_map_of_injective (hf : f.Injective) (l : List α) (a : α) : (l.map f).contains (f a) = l.contains a := by
  rw [Bool.eq_iff_iff, List.contains_iff_mem, List.contains_iff_mem]
  exact List.mem_map_of_injective hf

theorem removeAll_map_of_injective (hf : f.Injective) (l own : List α) :
    (l.map f).removeAll (own.map f) = (l.removeAll own).map f := by
  rw [List.removeAll, List.removeAll, List.filter_map]
  congr 1
  refine List.filter_congr fun a _ => ?_
  rw [Function.comp_apply, List.elem_eq_contains, List.elem_eq_contains, contains_map_of_injective hf]

theorem eraseDups_map_of_injective (hf : f.Injective) (l : List α) : (l.map f).eraseDups = l.eraseDups.map f := by
  induction l using List.reverseRecOn with
  | nil => rfl
  | append_singleton l a ih =>
    rw [List.map_append, List.map_singleton, eraseDups_concat, eraseDups_concat, ih, contains_map_of_injective hf,
      List.map_append]
    split <;> rfl

end Injective

theorem suffix_rtakeWhile_append {α : Type} {p : α → Bool} {l more : List α} (h : ∀ a ∈ more, p a = true) :
    more <:+ (l ++ more).rtakeWhile p := by
  rw [List.rtakeWhile, List.reverse_append, List.takeWhile_append_of_pos fun a ha => h a (List.mem_reverse.mp ha),
    List.reverse_append, List.reverse_reverse]
  exact List.suffix_append _ _

/-- A part of a list that has all its selected elements is continued in order by what stands behind the last of them. -/
theorem append_sublist_iff_of_filter {α : Type} [DecidableEq α] {own more all : List α}
    (hown : all.filter (· ∈ own) = own) : (own ++ more).Sublist all ↔ more.Sublist (all.rtakeWhile (· ∉ own)) := by
  constructor
  · intro h
    obtain ⟨front, back, rfl, hfront, hback⟩ := List.append_sublist_iff.mp h
    -- All selected elements stand in front already, so that none is left in the back.
    have hnone : back.filter (· ∈ own) = [] := by
      have hself : own.filter (· ∈ own) = own := List.filter_eq_self.mpr fun a ha => decide_eq_true ha
      have hle := (hfront.filter (· ∈ own)).length_le
      have hlength := congrArg List.length hown
      rw [List.filter_append, List.length_append] at hlength
      rw [hself] at hle
      exact List.eq_nil_of_length_eq_zero (by omega)
    refine hback.trans (suffix_rtakeWhile_append fun a ha => ?_).sublist
    simpa using List.filter_eq_nil_iff.mp hnone a ha
  · intro h
    have hsplit : all.rdropWhile (· ∉ own) ++ all.rtakeWhile (· ∉ own) = all := by
      rw [List.rdropWhile, List.rtakeWhile, ← List.reverse_append, List.takeWhile_append_dropWhile, List.reverse_reverse]
    have hnone : (all.rtakeWhile (· ∉ own)).filter (· ∈ own) = [] := by
      refine List.filter_eq_nil_iff.mpr fun a ha => ?_
      simpa using List.mem_rtakeWhile_imp ha
    have hfront : ((all.rdropWhile (· ∉ own)).filter (· ∈ own)).Sublist (all.rdropWhile (· ∉ own)) :=
      List.filter_sublist
    have hfilter := congrArg (List.filter (· ∈ own)) hsplit
    rw [List.filter_append, hnone, List.append_nil, hown] at hfilter
    rw [hfilter] at hfront
    rw [← hsplit]
    exact hfront.append h

/-- The methods that the text of an entry lists, in its order. -/
def Entry.methods (e : Entry) : List String := (words (e.method.getD "").toList).map String.ofList

/-- The methods that later routes add to those of the first route, each once and in the order in which they come. -/
def addedMethods (first : ClassifiedRoute) (later : List ClassifiedRoute) : List String :=
  ((later.flatMap ClassifiedRoute.methods).removeAll first.methods).eraseDups

variable {settings : Settings}

theorem filter_allowedMethods (methods : List String) :
    settings.methodsList.filter (· ∈ settings.allowedMethods methods) = settings.allowedMethods methods := by
  rw [Settings.allowedMethods]
  refine List.filter_congr fun method hmethod => ?_
  rw [Bool.eq_iff_iff, decide_eq_true_eq, List.mem_filter, and_iff_right hmethod]

theorem methods_of_mem_classifyFunction {r : Route} {handler : Option Handler} {c : ClassifiedRoute}
    (h : c ∈ r.classifyFunction settings handler) : c.methods = settings.allowedMethods r.methods := by
  rw [Route.classifyFunction] at h
  split at h
  · cases h
  · split at h
    · cases h
    · split at h
      · cases h
      · obtain rfl := List.mem_singleton.mp h
        rfl

/-- The methods of a classified route are among the shown ones; for a function they are all that its route accepts. -/
theorem methods_of_mem_classify {source : RouteSource} {c : ClassifiedRoute} (hc : c ∈ source.classify settings) :
    (∀ method ∈ c.methods, method ∈ settings.methodsList) ∧
      (c.kind = .api → settings.methodsList.filter (· ∈ c.methods) = c.methods) := by
  obtain ⟨r, -, hr⟩ := List.mem_flatMap.mp hc
  have hallowed (methods : List String) : ∀ method ∈ settings.allowedMethods methods, method ∈ settings.methodsList :=
    fun _ hm => List.mem_of_mem_filter hm
  simp only [Route.classify] at hr
  split at hr
  · split at hr
    · rename_i resource _
      obtain ⟨-, hmethod, he⟩ := (mem_classifyResource_iff r resource c).mp hr
      rw [he]
      refine ⟨fun method hm => ?_, fun hkind => by cases hkind⟩
      obtain rfl := List.mem_singleton.mp hm
      exact hallowed r.methods _ hmethod
    · cases hr
  · rw [methods_of_mem_classifyFunction hr]
    exact ⟨hallowed r.methods, fun _ => filter_allowedMethods r.methods⟩

section
variable (hv : settings.validate = .ok ())
include hv

theorem words_joinMethods_of_shown {methods : List String} (h : ∀ method ∈ methods, method ∈ settings.methodsList) :
    words (joinMethods methods).toList = methods.map String.toList := by
  rw [words_joinMethods, List.map_eq_flatMap]
  refine List.flatMap_congr fun method hm => ?_
  exact Settings.words_of_mem_httpMethods method (Settings.methodsList_of_validate hv method (h method hm))

/-- The text of a merged entry lists the methods of the first route, then those that later routes add. -/
theorem methods_mergedEntry {first : ClassifiedRoute} {later : List ClassifiedRoute} (handler : Handler)
    (hkind : first.kind = .api)
    (hshown : ∀ c ∈ first :: later, ∀ method ∈ c.methods, method ∈ settings.methodsList) :
    (mergedEntry settings first handler later).methods = first.methods ++ addedMethods first later := by
  have hfirst := words_joinMethods_of_shown hv (hshown first List.mem_cons_self)
  have hlater : (later.map fun c => joinMethods c.methods).flatMap (fun t => words t.toList) =
      (later.flatMap ClassifiedRoute.methods).map String.toList := by
    rw [List.flatMap_map, List.map_flatMap]
    exact List.flatMap_congr fun c hc => words_joinMethods_of_shown hv (hshown c (List.mem_cons_of_mem _ hc))
  have hinj : Function.Injective String.toList := fun _ _ h => String.toList_inj.mp h
  rw [Entry.methods, mergedEntry, hkind]
  simp only [Option.getD_some]
  rw [words_united, hfirst, hlater, removeAll_map_of_injective hinj, eraseDups_map_of_injective hinj, ← List.map_append,
    List.map_map, addedMethods]
  simp [Function.comp_def]

end

/-- An entry of a function lists its methods in display order just when the methods that later routes add to those of the
first one stand, in the order in which they come, behind all methods of the first route. -/
theorem methods_in_display_order_iff (source : RouteSource) (settings : Settings) (hv : settings.validate = .ok ()) :
    ∀ g ∈ Aggregate.build settings source, ∀ e ∈ g.children, e.kind = .api →
      e.method.isSome ∧ ∃ first handler later, Opens (source.classify settings) g.name e.name first handler later ∧
        e.methods = first.methods ++ addedMethods first later ∧
        (e.methods.Sublist settings.methodsList ↔
          (addedMethods first later).Sublist (settings.methodsList.rtakeWhile (· ∉ first.methods))) := by
  intro g hg e he hkind
  obtain ⟨first, handler, later, hopens, hfirst, rfl⟩ := opens_of_isChild ⟨⟨g, hg, rfl, he⟩, rfl, hkind⟩
  obtain ⟨before, after, hsplit, -, hlater⟩ := hopens.split
  have hmem : ∀ c ∈ first :: later, c ∈ source.classify settings := by
    intro c hc
    rw [hsplit]
    rcases List.mem_cons.mp hc with rfl | hc
    · simp
    · rw [hlater] at hc
      simp [List.mem_of_mem_filter hc]
  have hmethods := methods_mergedEntry hv handler hfirst fun c hc => (methods_of_mem_classify (hmem c hc)).1
  have hown := (methods_of_mem_classify (hmem first List.mem_cons_self)).2 hfirst
  refine ⟨by rw [mergedEntry, hfirst]; rfl, first, handler, later, hopens, hmethods, ?_⟩
  rw [hmethods]
  exact append_sublist_iff_of_filter hown

def goodsSettings : Settings := { member := ["shop"] }

/-- A function that is registered twice, each time with one method. -/
def goodsSource (method method' : String) : RouteSource :=
  (Application.ofRegistrations [.routeWithEndpoint "/goods" [method] "shop.goods" { name := "goods" },
    .routeWithEndpoint "/stock" [method'] "shop.goods" { name := "goods" }]).source

def goodsEntry (methods : String) : Entry :=
  ⟨"Goods", "", "/goods /stock", some methods, "No doc found for this Api", "", "Shop", .api⟩

/-- Methods that are registered in display order are listed in that order. -/
theorem goods_in_display_order :
    let source := goodsSource "get" "delete"
    goodsSettings.validate = .ok () ∧
      ∃ g ∈ Aggregate.build goodsSettings source, ∃ e ∈ g.children, e.kind = .api ∧ e.methods = ["GET", "DELETE"] ∧
        e.method.isSome ∧ ∃ first handler later, Opens (source.classify goodsSettings) g.name e.name first handler later ∧
          e.methods = first.methods ++ addedMethods first later ∧
          (e.methods.Sublist goodsSettings.methodsList ↔
            (addedMethods first later).Sublist (goodsSettings.methodsList.rtakeWhile (· ∉ first.methods))) := by
  intro source
  have hv : goodsSettings.validate = .ok () := by decide
  have hbuild : Aggregate.build goodsSettings source = [⟨"Shop", "", .api, [goodsEntry "GET DELETE"]⟩] :=
    Aggregate.build_of_foldl _ _ (by decide +kernel) rfl
  have hg : (⟨"Shop", "", .api, [goodsEntry "GET DELETE"]⟩ : Group) ∈ Aggregate.build goodsSettings source := by
    rw [hbuild]
    exact List.mem_singleton_self _
  have he : goodsEntry "GET DELETE" ∈ [goodsEntry "GET DELETE"] := List.mem_singleton_self _
  exact ⟨hv, _, hg, _, he, rfl, by decide, methods_in_display_order_iff source goodsSettings hv _ hg _ he rfl⟩

/-- Registered the other way round, the later method is listed behind the earlier one, although it is shown before it. -/
theorem goods_out_of_display_order :
    goodsSettings.validate = .ok () ∧
      ∃ g ∈ Aggregate.build goodsSettings (goodsSource "post" "get"), ∃ e ∈ g.children, e.kind = .api ∧
        e.methods = ["POST", "GET"] ∧ goodsSettings.methodsList = ["GET", "POST", "PUT", "DELETE", "PATCH"] ∧
        ¬ e.methods.Sublist goodsSettings.methodsList := by
  have hbuild : Aggregate.build goodsSettings (goodsSource "post" "get") =
      [⟨"Shop", "", .api, [goodsEntry "POST GET"]⟩] :=
    Aggregate.build_of_foldl _ _ (by decide +kernel) rfl
  rw [hbuild]
  exact ⟨by decide, _, List.mem_singleton_self _, _, List.mem_singleton_self _, rfl, by decide, by decide, by decide⟩

end ApiHandbook
