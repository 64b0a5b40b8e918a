import ApiHandbook.Project.Actix
import ApiHandbook.Project.Axum
import ApiHandbook.Project.Framework
import ApiHandbook.Project.Index

/-! The application that the registrations of a project make. -/
namespace ApiHandbook.Project
open Code

/-- The resource type that an argument of `add_resource` names. -/
def resourceName? : Expr → Option String
  | .path _ p _ => p.last?
  | .construction p _ => p.last?
  | .call (.path _ p _) _ => if 2 ≤ p.names.length then p.names.dropLast.getLast? else p.last?
  | .reference inner => resourceName? inner
  | .parenthesized inner => resourceName? inner
  | _ => none

/-- The routes of a call `.add_resource(X, "/a", "/b")`. -/
def resourceRoutes (method : String) (arguments : List Expr) : List FoundRoute :=
  match arguments with
  | resource :: urls =>
    if method = "add_resource" then
      match resourceName? resource with
      | some name => (urls.filterMap textOf?).map fun url => ⟨url, [], .resource name, none⟩
      | none => []
    else []
  | [] => []

/-- The registrations of resources, whatever the framework. -/
def resourceRegistrations (files : List SourceFile) : List FoundRoute :=
  let survey : Survey Unit FoundRoute :=
    { call := fun _ _ method arguments => { found := resourceRoutes method arguments, inside := () } }
  files.flatMap fun f => survey.items () f.items

/-- The routes that a framework's registrations make. -/
def Framework.routes : Framework → List SourceFile → List FoundRoute
  | .axum => Axum.routes
  | .actixWeb => Actix.routes

/-- All registrations of a project: those of each framework, then those of resources. -/
def foundRoutes (files : List SourceFile) (frameworks : List Framework) : List FoundRoute :=
  (frameworks.flatMap fun framework => framework.routes files) ++ resourceRegistrations files

/-- The endpoint of a function in a module. -/
def functionEndpoint (module : Option String) (name : String) : String :=
  match module with
  | some module => module ++ "." ++ name
  | none => name

/-- The registration call of a route to a function; a function that is not defined has no documentation. -/
def functionCall? (index : Index) (route : FoundRoute) : Option Registration :=
  match route.target with
  | .function name =>
    let (module, handler) := (index.function? route.module name).getD (route.module, { name })
    some (.routeWithEndpoint route.path route.methods (functionEndpoint module name) handler)
  | .resource _ => none

def resourceUrl? (route : FoundRoute) : Option (String × String) :=
  match route.target with
  | .resource name => some (name, route.path)
  | .function _ => none

/-- The registration calls of resources: one for each resource, with all its URLs. -/
def resourceCalls (index : Index) (routes : List FoundRoute) : List Registration :=
  let urls := routes.filterMap resourceUrl?
  (distinct (urls.map Prod.fst)).map fun name =>
    .addResource ((index.resource? name).getD { name }) ((urls.filter fun u => u.1 = name).map Prod.snd)

/-- The registration calls that the routes of a project stand for: functions first, then resources. -/
def registrations (index : Index) (routes : List FoundRoute) : List Registration :=
  routes.filterMap (functionCall? index) ++ resourceCalls index routes

/-- The application of a project. -/
def application (files : List SourceFile) (frameworks : List Framework) : Application :=
  Application.ofRegistrations (registrations (Index.ofFiles files) (foundRoutes files frameworks))

end ApiHandbook.Project
