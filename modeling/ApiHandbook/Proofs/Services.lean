import ApiHandbook.Proofs.Extraction
import ApiHandbook.Proofs.Scopes

/-! The routes extracted from a project that registers them in scopes. Each route is found once, under the scopes around
its registration; for a route that an attribute declares, that is where its handler is mounted. -/
namespace ApiHandbook.Project.Actix
open Code

/-- Scopes joined from the outermost inwards. -/
def joined (scopes : List String) : String := scopes.foldl joinRules ""

/-- The path of a call of `route` inside scopes. -/
def calledPath (scopes : List String) (own : Option String) (path : String) : String :=
  joinRules (joined (scopes ++ own.toList)) path

/-- The path that a call of `route` is found under; where it is called on no scope, an empty one is joined. -/
def foundPath (scopes : List String) (own : Option String) (path : String) : String :=
  joinRules (joinRules (joined scopes) (own.getD "")) path

/-- The route that an entry of a file stands for, given where handlers are mounted and what calls of `route` say. -/
def Entry.route? (scopeOf : String → String) (place : List String → Option String → String → String)
    (file : Option String) : Entry → Option FoundRoute
  | .declared _ handler verbs path => some ⟨joinRules (scopeOf handler) path, verbs, .function handler, file⟩
  | .called scopes own path verb handler =>
    some ⟨place scopes own path, [verb], .function handler.name, handler.module <|> file⟩
  | .mounted _ _ => none

/-- The handler that an entry mounts inside a scope, with the scopes joined. -/
def Entry.mounting? : Entry → Option (FunctionName × String)
  | .mounted scopes handler => if (joined scopes).isEmpty then none else some (handler, joined scopes)
  | _ => none

def entries (files : List SourceFile) : List Entry := (registered files).map Prod.snd

/-- The handlers that a project mounts in scopes. -/
def mountings (files : List SourceFile) : List (FunctionName × String) := (entries files).filterMap Entry.mounting?

/-- The scope in which the handlers of a name are taken to be mounted. -/
def scopeOf (files : List SourceFile) (handler : String) : String := ((scopes (found files)).lookup handler).getD ""

def Finding.service? : Finding → Option (String × String)
  | .service handler scope => some (handler, scope)
  | _ => none

theorem scopes_eq (found : List Finding) : scopes found =
    (found.filterMap Finding.service?).foldl (fun scopes (handler, scope) => put handler scope scopes) [] := by
  rw [scopes, List.foldl_filterMap]
  congr 1
  funext scopes f
  cases f <;> rfl

section Chained
variable {files : List SourceFile} (hread : AllChained files)
include hread

theorem services_eq : (found files).filterMap Finding.service? =
    (mountings files).map fun (handler, scope) => (handler.name, scope) := by
  rw [found_eq hread, mountings, entries, List.filterMap_flatMap, List.filterMap_map, List.map_filterMap,
    List.filterMap_eq_flatMap_toList]
  refine List.flatMap_congr fun (file, entry) _ => ?_
  cases entry with
  | mounted scopes handler =>
    by_cases hscope : (scopes.foldl joinRules "").isEmpty <;>
      simp [Entry.findings, Entry.mounting?, joined, hscope, Finding.service?]
  | _ => rfl

/-- Of several mountings of one name the last counts. -/
theorem lookup_scopes (handler : String) : (scopes (found files)).lookup handler =
    (((mountings files).filter (·.1.name == handler)).getLast?).map Prod.snd := by
  rw [scopes_eq, services_eq hread, lookup_foldl_put, List.lookup_nil, Option.or_none, lookup_reverse, List.filter_map,
    List.getLast?_map, Option.map_map]
  rfl

theorem routes_eq : routes files = (registered files).filterMap fun (file, entry) =>
    entry.route? (scopeOf files) foundPath file := by
  have hroutes : routes files = (found files).filterMap (routeOf? (scopes (found files))) := rfl
  rw [hroutes]
  conv_lhs => arg 2; rw [found_eq hread]
  rw [List.filterMap_flatMap, List.filterMap_eq_flatMap_toList]
  refine List.flatMap_congr fun (file, entry) _ => ?_
  cases entry with
  | declared module handler verbs path =>
    cases hscope : (scopes (found files)).lookup handler <;>
      simp [Entry.findings, Entry.route?, routeOf?, scopeOf, hscope, joinRules]
  | called scopes own path verb handler => rfl
  | mounted inner handler =>
    by_cases hscope : (inner.foldl joinRules "").isEmpty <;> simp [Entry.findings, Entry.route?, routeOf?, hscope]

theorem scopeOf_of_last {before after : List (FunctionName × String)} {handler : FunctionName} {scope : String}
    (h : mountings files = before ++ (handler, scope) :: after) (hlast : ∀ m ∈ after, m.1.name ≠ handler.name) :
    scopeOf files handler.name = scope := by
  have hafter : after.filter (·.1.name == handler.name) = [] :=
    List.filter_eq_nil_iff.mpr fun m hm hname => hlast m hm (beq_iff_eq.mp hname)
  have hfirst : ((handler, scope) :: after).filter (·.1.name == handler.name) = [(handler, scope)] := by
    rw [List.filter_cons_of_pos (by exact beq_self_eq_true handler.name), hafter]
  rw [scopeOf, lookup_scopes hread, h, List.filter_append, hfirst, List.getLast?_concat]
  rfl

theorem scopeOf_of_none {handler : String} (h : ∀ m ∈ mountings files, m.1.name ≠ handler) :
    scopeOf files handler = "" := by
  have hnone : (mountings files).filter (·.1.name == handler) = [] :=
    List.filter_eq_nil_iff.mpr fun m hm hname => h m hm (beq_iff_eq.mp hname)
  rw [scopeOf, lookup_scopes hread, hnone]
  rfl

end Chained

/-- Puts the routes that attributes of a mounted handler declare under its scope. -/
def mountDeclared (mounted : String × String) : Finding → Finding
  | .declared handler route =>
    .declared handler (if handler = mounted.1 then { route with path := joinRules mounted.2 route.path } else route)
  | finding => finding

theorem foldl_mountDeclared {order : List (String × String)} (h : (order.map Prod.fst).Nodup) (handler : String)
    (route : FoundRoute) : order.foldl (fun finding mounted => mountDeclared mounted finding) (.declared handler route) =
      .declared handler (match order.lookup handler with
        | some scope => { route with path := joinRules scope route.path }
        | none => route) := by
  induction order generalizing route with
  | nil => rfl
  | cons mounted order ih =>
    obtain ⟨hmounted, hrest⟩ := List.nodup_cons.mp h
    rw [List.foldl_cons, mountDeclared, ih hrest, lookup_cons_eq]
    by_cases hname : handler = mounted.1
    · have hnone : order.lookup handler = none := by
        rw [List.lookup_eq_none_iff]
        rintro m hm
        refine bne_iff_ne.mpr fun heq => hmounted (List.mem_map.mpr ⟨m, hm, ?_⟩)
        rw [← heq, hname]
      rw [if_pos hname, if_pos hname, hnone]
    · rw [if_neg hname, if_neg hname]

/-- Mounting the handlers one after the other gives the routes in whatever order they come. -/
theorem routes_of_order {files : List SourceFile} {order : List (String × String)}
    (horder : order.Perm (scopes (found files))) :
    (order.foldl (fun found mounted => found.map (mountDeclared mounted)) (found files)).filterMap (routeOf? []) =
      routes files := by
  have hmap (found : List Finding) : order.foldl (fun found mounted => found.map (mountDeclared mounted)) found =
      found.map fun finding => order.foldl (fun finding mounted => mountDeclared mounted finding) finding := by
    clear horder
    induction order generalizing found with
    | nil => exact (List.map_id _).symm
    | cons mounted order ih => rw [List.foldl_cons, ih, List.map_map]; rfl
  have hnodup : ((scopes (found files)).map Prod.fst).Nodup := by
    rw [scopes_eq]
    exact nodup_keys_foldl_put _ [] List.nodup_nil
  have hnodup' : (order.map Prod.fst).Nodup := (horder.map Prod.fst).nodup_iff.mpr hnodup
  have hroutes : routes files = (found files).filterMap (routeOf? (scopes (found files))) := rfl
  rw [hmap, List.filterMap_map, hroutes]
  refine List.filterMap_congr fun finding _ => ?_
  cases finding with
  | declared handler route =>
    rw [Function.comp, foldl_mountDeclared hnodup', lookup_perm horder hnodup]
    simp only [routeOf?, List.lookup_nil]
    cases (scopes (found files)).lookup handler <;> rfl
  | called route =>
    rw [Function.comp, List.foldl_fixed' fun _ => rfl]
    rfl
  | service handler scope =>
    rw [Function.comp, List.foldl_fixed' fun _ => rfl]
    rfl

/-- The scopes around an entry. -/
def Entry.scopes : Entry → List String
  | .declared _ _ _ _ => []
  | .called scopes own _ _ _ => scopes ++ own.toList
  | .mounted scopes _ => scopes

/-- Whether an entry mounts the handlers of a name inside a scope. -/
def Entry.mountsInside (handler : String) : Entry → Bool
  | .mounted scopes f => f.name == handler && !scopes.isEmpty
  | _ => false

def declaredHandlers (entries : List Entry) : List String :=
  entries.filterMap fun
    | .declared _ handler _ _ => some handler
    | _ => none

/-- The scopes under which a handler is mounted: those around the call that mounts it inside a scope, or none. -/
inductive ScopesOf (entries : List Entry) (handler : String) : List String → Prop where
  | inside {scopes f} : .mounted scopes f ∈ entries → f.name = handler → scopes ≠ [] → ScopesOf entries handler scopes
  | outside : (∀ scopes f, .mounted scopes f ∈ entries → f.name = handler → scopes = []) → ScopesOf entries handler []

theorem mountsInside_iff {handler : String} {e : Entry} :
    e.mountsInside handler = true ↔ ∃ scopes f, e = .mounted scopes f ∧ f.name = handler ∧ scopes ≠ [] := by
  cases e <;> simp [Entry.mountsInside]

theorem solid_joined {scopes : List String} (hsolid : ∀ scope ∈ scopes, Solid scope) (h : scopes ≠ []) :
    Solid (joined scopes) := by
  obtain ⟨scope, rest, rfl⟩ := List.exists_cons_of_ne_nil h
  exact (hsolid scope List.mem_cons_self).foldl_joinRules rest

theorem mounting?_of_solid {scopes : List String} (hsolid : ∀ scope ∈ scopes, Solid scope) (h : scopes ≠ [])
    (handler : FunctionName) : Entry.mounting? (.mounted scopes handler) = some (handler, joined scopes) := by
  rw [Entry.mounting?, (solid_joined hsolid h).isEmpty_eq_false]
  rfl

theorem foundPath_eq {scopes : List String} {own : Option String} (hsolid : ∀ scope ∈ scopes, Solid scope)
    (path : String) : foundPath scopes own path = calledPath scopes own path := by
  cases own with
  | some scope =>
    rw [calledPath, joined, List.foldl_append]
    rfl
  | none =>
    rw [foundPath, calledPath, Option.toList_none, List.append_nil]
    cases scopes with
    | nil => rfl
    | cons scope rest => exact joinRules_joinRules_empty (solid_joined hsolid (List.cons_ne_nil _ _)) path

section Once
variable {files : List SourceFile} {handler : String}

/-- The mountings of a name are the entries that mount it inside a scope, as long as scopes are no mere slashes. -/
theorem filter_mountings (hsolid : ∀ e ∈ entries files, ∀ scope ∈ e.scopes, Solid scope) :
    (mountings files).filter (·.1.name == handler) =
      ((entries files).filter (Entry.mountsInside handler)).filterMap Entry.mounting? := by
  rw [mountings, List.filter_filterMap, List.filterMap_filter]
  refine List.filterMap_congr fun e he => ?_
  cases e with
  | mounted scopes f =>
    by_cases hscopes : scopes = []
    · subst hscopes
      simp [Entry.mounting?, Entry.mountsInside, joined]
    · have hinside : Entry.mountsInside handler (.mounted scopes f) = (f.name == handler) := by
        rw [Entry.mountsInside, List.isEmpty_eq_false_iff.mpr hscopes, Bool.not_false, Bool.and_true]
      have hscopes' : ∀ scope ∈ scopes, Solid scope := hsolid _ he
      rw [mounting?_of_solid hscopes' hscopes, hinside]
      rfl
  | _ => rfl

theorem scopesOf_iff (honce : (entries files).countP (Entry.mountsInside handler) ≤ 1) (scopes : List String) :
    ScopesOf (entries files) handler scopes ↔
      scopes = (((entries files).find? (Entry.mountsInside handler)).map Entry.scopes).getD [] := by
  have hmem (e : Entry) : e ∈ (entries files).filter (Entry.mountsInside handler) ↔
      e ∈ entries files ∧ Entry.mountsInside handler e = true := List.mem_filter
  rw [List.countP_eq_length_filter] at honce
  rw [← List.head?_filter]
  cases hfilter : (entries files).filter (Entry.mountsInside handler) with
  | nil =>
    rw [hfilter] at hmem
    have hnone (scopes : List String) (f : FunctionName) (he : .mounted scopes f ∈ entries files)
        (hf : f.name = handler) : scopes = [] := by
      by_contra hscopes
      exact List.not_mem_nil ((hmem _).mpr ⟨he, mountsInside_iff.mpr ⟨scopes, f, rfl, hf, hscopes⟩⟩)
    constructor
    · intro h
      cases h with
      | inside he hf hscopes => exact absurd (hnone _ _ he hf) hscopes
      | outside _ => rfl
    · rintro rfl
      exact .outside hnone
  | cons first rest =>
    rw [hfilter] at hmem honce
    obtain rfl := List.eq_nil_of_length_eq_zero (Nat.le_zero.mp (Nat.le_of_succ_le_succ honce))
    obtain ⟨hfirst, hinside⟩ := (hmem first).mp List.mem_cons_self
    obtain ⟨scopes', f, rfl, hf, hscopes'⟩ := mountsInside_iff.mp hinside
    constructor
    · intro h
      cases h with
      | @inside _ g he hg hscopes =>
        have hsame := (hmem _).mpr ⟨he, mountsInside_iff.mpr ⟨scopes, g, rfl, hg, hscopes⟩⟩
        exact (Entry.mounted.inj (List.mem_singleton.mp hsame)).1
      | outside hnone => exact absurd (hnone _ _ hfirst hf) hscopes'
    · rintro rfl
      exact .inside hfirst hf hscopes'

theorem scopeOf_eq_joined (hread : AllChained files) (hsolid : ∀ e ∈ entries files, ∀ scope ∈ e.scopes, Solid scope)
    (honce : (entries files).countP (Entry.mountsInside handler) ≤ 1) :
    scopeOf files handler =
      joined ((((entries files).find? (Entry.mountsInside handler)).map Entry.scopes).getD []) := by
  rw [List.countP_eq_length_filter] at honce
  rw [scopeOf, lookup_scopes hread, filter_mountings hsolid, ← List.head?_filter]
  cases hfilter : (entries files).filter (Entry.mountsInside handler) with
  | nil => rfl
  | cons first rest =>
    rw [hfilter] at honce
    obtain rfl := List.eq_nil_of_length_eq_zero (Nat.le_zero.mp (Nat.le_of_succ_le_succ honce))
    obtain ⟨hfirst, hinside⟩ := List.mem_filter.mp (hfilter ▸ List.mem_cons_self)
    obtain ⟨scopes, f, rfl, _, hscopes⟩ := mountsInside_iff.mp hinside
    have hscopes' : ∀ scope ∈ scopes, Solid scope := hsolid _ hfirst
    rw [List.filterMap_cons, mounting?_of_solid hscopes' hscopes]
    rfl

end Once

/-- The routes of a project are those of its entries, each found once and in the order of the text: a route that an
attribute declares under the scopes in which its handler is mounted, whatever the file, and a call of `route` under the
scopes around it. The order in which mounted handlers are gone through does not matter. -/
theorem routes_of_scopes {files : List SourceFile} (hread : AllChained files)
    (hsolid : ∀ e ∈ entries files, ∀ scope ∈ e.scopes, Solid scope)
    (honce : ∀ handler ∈ declaredHandlers (entries files), (entries files).countP (Entry.mountsInside handler) ≤ 1) :
    (∃ scopesOf : String → List String,
      (∀ handler ∈ declaredHandlers (entries files), ∀ scopes,
        ScopesOf (entries files) handler scopes ↔ scopes = scopesOf handler) ∧
      routes files = (registered files).filterMap fun (file, entry) =>
        entry.route? (fun handler => joined (scopesOf handler)) calledPath file) ∧
    ∀ order : List (String × String), order.Perm (scopes (found files)) →
      (order.foldl (fun found mounted => found.map (mountDeclared mounted)) (found files)).filterMap (routeOf? []) =
        routes files := by
  refine ⟨⟨fun handler => (((entries files).find? (Entry.mountsInside handler)).map Entry.scopes).getD [],
    fun handler hhandler => scopesOf_iff (honce handler hhandler), ?_⟩, fun order => routes_of_order⟩
  rw [routes_eq hread]
  refine List.filterMap_congr fun (file, entry) hentry => ?_
  have hmem : entry ∈ entries files := List.mem_map_of_mem hentry
  cases entry with
  | declared module handler verbs path =>
    have hhandler : handler ∈ declaredHandlers (entries files) := List.mem_filterMap.mpr ⟨_, hmem, rfl⟩
    simp only [Entry.route?, scopeOf_eq_joined hread hsolid (honce handler hhandler)]
  | called scopes own path verb handler =>
    have hscopes : ∀ scope ∈ scopes, Solid scope := fun scope hscope =>
      hsolid _ hmem scope (List.mem_append_left _ hscope)
    simp only [Entry.route?, foundPath_eq hscopes]
  | mounted scopes handler => rfl

/-- Handlers in one file, mounted in another one. -/
def gallery : List SourceFile := Axum.filesOf
  [(some "handlers", "#[get(\"/users\")] fn users() \x7b\x7d #[route(\"/\", method = \"GET\", method = \"post\")] fn top() \x7b\x7d"),
    (none, "fn app() \x7b App::new().service(web::scope(\"/api\").service(web::scope(\"/v1/\").service(handlers::users)" ++
      ".service(web::resource(\"/items\").route(web::delete().to(drop)))).route(\"/ping\", web::get().to(health::ping)))" ++
      ".service(top) \x7d")]

def galleryEntries : List (Option String × Entry) :=
  [(some "handlers", .declared (some "handlers") "users" ["GET"] "/users"),
    (some "handlers", .declared (some "handlers") "top" ["GET", "POST"] "/"),
    (none, .mounted ["/api", "/v1/"] ⟨some "handlers", "users"⟩),
    (none, .called ["/api", "/v1/"] none "/items" "DELETE" ⟨none, "drop"⟩),
    (none, .called [] (some "/api") "/ping" "GET" ⟨some "health", "ping"⟩), (none, .mounted [] ⟨none, "top"⟩)]

theorem read_gallery : AllChained gallery ∧ registered gallery = galleryEntries := by decide +kernel

theorem routes_of_gallery : AllChained gallery ∧ (∀ e ∈ entries gallery, ∀ scope ∈ e.scopes, Solid scope) ∧
    (∀ handler ∈ declaredHandlers (entries gallery),
      (entries gallery).countP (Entry.mountsInside handler) ≤ 1) ∧
    routes gallery = [⟨"/api/v1/users", ["GET"], .function "users", some "handlers"⟩,
      ⟨"/", ["GET", "POST"], .function "top", some "handlers"⟩, ⟨"/api/v1/items", ["DELETE"], .function "drop", none⟩,
      ⟨"/api/ping", ["GET"], .function "ping", some "health"⟩] := by
  obtain ⟨hread, hregistered⟩ := read_gallery
  have hentries : entries gallery = galleryEntries.map Prod.snd := congrArg (List.map Prod.snd) hregistered
  have hsolid : ∀ e ∈ entries gallery, ∀ scope ∈ e.scopes, Solid scope := by
    rw [hentries]
    decide +kernel
  have honce : ∀ handler ∈ declaredHandlers (entries gallery),
      (entries gallery).countP (Entry.mountsInside handler) ≤ 1 := by
    rw [hentries]
    decide
  obtain ⟨⟨scopesOf, hscopes, hroutes⟩, _⟩ := routes_of_scopes hread hsolid honce
  rw [hentries] at hscopes
  have husers := (hscopes "users" (by decide) ["/api", "/v1/"]).mp
    (.inside (.tail _ (.tail _ (.head _))) rfl (List.cons_ne_nil _ _))
  have htop := (hscopes "top" (by decide) []).mp (.outside fun scopes f hf hname => by
    simp only [galleryEntries, List.map_cons, List.map_nil, List.mem_cons, reduceCtorEq, Entry.mounted.injEq, false_or,
      List.not_mem_nil, or_false] at hf
    rcases hf with ⟨_, rfl⟩ | ⟨rfl, _⟩
    · exact absurd hname (by decide)
    · rfl)
  refine ⟨hread, hsolid, honce, ?_⟩
  rw [hroutes, hregistered]
  simp only [galleryEntries, List.filterMap_cons, List.filterMap_nil, Entry.route?, ← husers, ← htop]
  decide +kernel

/-- The routes that attributes declare for the handlers of one name are all found under one scope: that of the last
handler of the name that is mounted in a scope, in whatever module, if there is one. -/
theorem routes_of_last_mounting {files : List SourceFile} (hread : AllChained files) :
    ∃ scopeOf : String → String,
      routes files = (registered files).filterMap (fun (file, entry) => entry.route? scopeOf foundPath file) ∧
      (∀ before handler scope after, mountings files = before ++ (handler, scope) :: after →
        (∀ m ∈ after, m.1.name ≠ handler.name) → scopeOf handler.name = scope) ∧
      ∀ handler, (∀ m ∈ mountings files, m.1.name ≠ handler) → scopeOf handler = "" :=
  ⟨scopeOf files, routes_eq hread, fun _ _ _ _ h hlast => scopeOf_of_last hread h hlast,
    fun _ h => scopeOf_of_none hread h⟩

/-- Two modules with handlers of one name. -/
def feeds : List SourceFile := Axum.filesOf
  [(none, "fn app() \x7b App::new().service(web::scope(\"/users\").service(users::list))" ++
      ".service(web::scope(\"/posts\").service(posts::list)) \x7d"),
    (some "users", "#[get(\"/all\")] fn list() \x7b\x7d"), (some "posts", "#[get(\"/recent\")] fn list() \x7b\x7d")]

def feedsEntries : List (Option String × Entry) :=
  [(none, .mounted ["/users"] ⟨some "users", "list"⟩), (none, .mounted ["/posts"] ⟨some "posts", "list"⟩),
    (some "users", .declared (some "users") "list" ["GET"] "/all"),
    (some "posts", .declared (some "posts") "list" ["GET"] "/recent")]

theorem read_feeds : AllChained feeds ∧ registered feeds = feedsEntries ∧ routes feeds =
    [⟨"/posts/all", ["GET"], .function "list", some "users"⟩, ⟨"/posts/recent", ["GET"], .function "list", some "posts"⟩] := by
  decide +kernel

theorem list_under_posts : AllChained feeds ∧
    ∃ scopeOf : String → String,
      routes feeds = (registered feeds).filterMap (fun (file, entry) => entry.route? scopeOf foundPath file) ∧
      scopeOf "list" = "/posts" := by
  obtain ⟨hread, hregistered, _⟩ := read_feeds
  obtain ⟨scopeOf, hroutes, hlast, _⟩ := routes_of_last_mounting hread
  refine ⟨hread, scopeOf, hroutes, ?_⟩
  refine hlast [(⟨some "users", "list"⟩, "/users")] ⟨some "posts", "list"⟩ "/posts" [] ?_ (fun m hm => nomatch hm)
  rw [mountings, entries, hregistered]
  decide

/-- The route of one of two handlers of the same name, each mounted in one scope, is found under the scope of the
other. -/
theorem route_under_other_scope : AllChained feeds ∧
    (entries feeds).count (.mounted ["/users"] ⟨some "users", "list"⟩) = 1 ∧
    (entries feeds).count (.mounted ["/posts"] ⟨some "posts", "list"⟩) = 1 ∧
    (some "users", .declared (some "users") "list" ["GET"] "/all") ∈ registered feeds ∧
    ⟨joinRules (joined ["/users"]) "/all", ["GET"], .function "list", some "users"⟩ ∉ routes feeds := by
  obtain ⟨hread, hregistered, hroutes⟩ := read_feeds
  rw [entries, hregistered, hroutes]
  exact ⟨hread, by decide, by decide, by decide, by decide +kernel⟩

end ApiHandbook.Project.Actix
