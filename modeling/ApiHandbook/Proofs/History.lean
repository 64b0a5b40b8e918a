import ApiHandbook.Proofs.Registration

/-! What a history of registration calls leaves behind, read off the calls: the routes of all calls in their order, the
first handler that a call supplies for an endpoint, and the first resource of a name. -/
namespace ApiHandbook

namespace Registration

/-- The routes that a call adds. -/
def routes : Registration → List Route
  | .route rule methods handler => [⟨rule, methods.map upperMethod, handler.name⟩]
  | .routeWithEndpoint rule methods endpoint _ => [⟨rule, methods.map upperMethod, endpoint⟩]
  | .blueprintRoute module urlPrefix rule methods handler =>
    [⟨Application.blueprintRule urlPrefix rule, methods.map upperMethod, module ++ "." ++ handler.name⟩]
  | .addResource resource urls =>
    urls.map fun url => ⟨url, resource.methods.map upperMethod, resource.endpoint⟩

/-- The endpoint that a call supplies a handler for, and the handler. -/
def supplied : Registration → String × Handler
  | .route _ _ handler => (handler.name, handler)
  | .routeWithEndpoint _ _ endpoint handler => (endpoint, handler)
  | .blueprintRoute module _ _ _ handler => (module ++ "." ++ handler.name, handler)
  | .addResource resource _ => (resource.endpoint, Application.dispatcher resource)

/-- The name and the resource that a call registers. -/
def resource? : Registration → Option (String × Resource)
  | .addResource resource _ => some (resource.name, resource)
  | _ => none

end Registration

namespace Application

theorem register_eq (app : Application) (call : Registration) : app.register call =
    { routes := app.routes ++ call.routes
      handlers := insertNew call.supplied.1 call.supplied.2 app.handlers
      resources := (call.resource?.elim app.resources fun entry => insertNew entry.1 entry.2 app.resources) } := by
  cases call <;> rfl

theorem handler_register (app : Application) (call : Registration) (endpoint : String) :
    (app.register call).handler endpoint = (app.handler endpoint).or ([call.supplied].lookup endpoint) := by
  rw [register_eq, Application.handler, lookup_insertNew, Application.handler, lookup_cons_eq, List.lookup_nil]

theorem resource_register (app : Application) (call : Registration) (name : String) :
    (app.register call).resource name = (app.resource name).or (call.resource?.toList.lookup name) := by
  rw [register_eq, Application.resource, Application.resource]
  cases call.resource? with
  | none => exact (Option.or_none).symm
  | some entry =>
    rw [Option.elim_some, lookup_insertNew, Option.toList_some, lookup_cons_eq, List.lookup_nil]

/-- The routes are those of all calls, in the order of the calls. -/
theorem routes_ofRegistrations (calls : List Registration) :
    (ofRegistrations calls).routes = calls.flatMap Registration.routes := by
  have run (app : Application) : (calls.foldl register app).routes = app.routes ++ calls.flatMap Registration.routes := by
    induction calls generalizing app with
    | nil => exact (List.append_nil _).symm
    | cons call calls ih => rw [List.foldl_cons, ih, register_eq, List.flatMap_cons, List.append_assoc]
  exact run {}

/-- The handler of an endpoint is the first one that a call supplies for it. -/
theorem handler_ofRegistrations (calls : List Registration) (endpoint : String) :
    (ofRegistrations calls).handler endpoint = (calls.map Registration.supplied).lookup endpoint := by
  have run (app : Application) : (calls.foldl register app).handler endpoint =
      (app.handler endpoint).or ((calls.map Registration.supplied).lookup endpoint) := by
    induction calls generalizing app with
    | nil => exact Option.or_none.symm
    | cons call calls ih =>
      rw [List.foldl_cons, ih, handler_register, Option.or_assoc, ← List.lookup_append, List.singleton_append,
        List.map_cons]
  exact run {}

/-- The resource of a name is the first one that a call registers under it. -/
theorem resource_ofRegistrations (calls : List Registration) (name : String) :
    (ofRegistrations calls).resource name = (calls.filterMap Registration.resource?).lookup name := by
  have run (app : Application) : (calls.foldl register app).resource name =
      (app.resource name).or ((calls.filterMap Registration.resource?).lookup name) := by
    induction calls generalizing app with
    | nil => exact Option.or_none.symm
    | cons call calls ih =>
      rw [List.foldl_cons, ih, resource_register, Option.or_assoc, ← List.lookup_append]
      cases hcall : call.resource? with
      | none => rw [List.filterMap_cons_none hcall, Option.toList_none, List.nil_append]
      | some entry => rw [List.filterMap_cons_some hcall, Option.toList_some, List.singleton_append]
  exact run {}

theorem mem_routes_of_mem {calls : List Registration} {call : Registration} (h : call ∈ calls) {r : Route}
    (hr : r ∈ call.routes) : r ∈ (ofRegistrations calls).routes := by
  rw [routes_ofRegistrations]
  exact List.mem_flatMap.mpr ⟨call, h, hr⟩

end Application
end ApiHandbook
