import ApiHandbook.Proofs.Case
import ApiHandbook.Proofs.Entries

/-! What holds of an application after any registration calls. -/
namespace ApiHandbook
open Text

namespace Application

structure WellFormed (app : Application) : Prop where
  handler_isSome : ∀ r ∈ app.routes, (app.handler r.endpoint).isSome
  resource_name : ∀ name resource, app.resource name = some resource → resource.name = name
  upperMethod_eq : ∀ r ∈ app.routes, ∀ method ∈ r.methods, upperMethod method = method

theorem addRoute_wellFormed {app : Application} (h : app.WellFormed) (rule : String) (methods : List String)
    (endpoint : String) (handler : Handler) : (app.addRoute rule methods endpoint handler).WellFormed where
  handler_isSome r hr := by
    rw [Application.handler, addRoute, lookup_insertNew, Option.isSome_or]
    rcases List.mem_append.mp hr with hr | hr
    · rw [show (app.handlers.lookup r.endpoint).isSome = true from h.handler_isSome r hr, Bool.true_or]
    · obtain rfl := List.mem_singleton.mp hr
      simp
  resource_name := h.resource_name
  upperMethod_eq r hr method hm := by
    rcases List.mem_append.mp hr with hr | hr
    · exact h.upperMethod_eq r hr method hm
    · obtain rfl := List.mem_singleton.mp hr
      obtain ⟨m, _, rfl⟩ := List.mem_map.mp hm
      exact upperMethod_upperMethod m

theorem addResource_wellFormed {app : Application} (h : app.WellFormed) (resource : Resource) (urls : List String) :
    (app.register (.addResource resource urls)).WellFormed where
  handler_isSome r hr := by
    rw [Application.handler, register, lookup_insertNew, Option.isSome_or]
    rcases List.mem_append.mp hr with hr | hr
    · rw [show (app.handlers.lookup r.endpoint).isSome = true from h.handler_isSome r hr, Bool.true_or]
    · obtain ⟨url, _, rfl⟩ := List.mem_map.mp hr
      simp
  resource_name name found hf := by
    rw [Application.resource, register, lookup_insertNew, Option.or_eq_some_iff] at hf
    rcases hf with hf | ⟨_, hf⟩
    · exact h.resource_name name found hf
    · split at hf
      · rename_i hn
        obtain rfl := Option.some.inj hf
        exact hn.symm
      · cases hf
  upperMethod_eq r hr method hm := by
    rcases List.mem_append.mp hr with hr | hr
    · exact h.upperMethod_eq r hr method hm
    · obtain ⟨url, _, rfl⟩ := List.mem_map.mp hr
      obtain ⟨m, _, rfl⟩ := List.mem_map.mp hm
      exact upperMethod_upperMethod m

theorem register_wellFormed {app : Application} (h : app.WellFormed) (call : Registration) :
    (app.register call).WellFormed := by
  cases call with
  | route rule methods handler => exact addRoute_wellFormed h ..
  | routeWithEndpoint rule methods endpoint handler => exact addRoute_wellFormed h ..
  | blueprintRoute module urlPrefix rule methods handler => exact addRoute_wellFormed h ..
  | addResource resource urls => exact addResource_wellFormed h resource urls

/-- Every route has a handler, every resource stands under its own name, and all methods are in capitals. -/
theorem ofRegistrations_wellFormed (calls : List Registration) : (ofRegistrations calls).WellFormed := by
  have run (app : Application) (h : app.WellFormed) : (calls.foldl register app).WellFormed := by
    induction calls generalizing app with
    | nil => exact h
    | cons call calls ih => exact ih _ (register_wellFormed h call)
  refine run {} ⟨?_, ?_, ?_⟩
  · simp
  · intro name resource h
    cases h
  · simp

end Application
end ApiHandbook
