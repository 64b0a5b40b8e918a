import ApiHandbook.Application
import ApiHandbook.Settings

/-! Which routes are documented, and as what: a plain handler's route becomes one entry with all its shown methods, a
resource's route one entry for each shown method. -/
namespace ApiHandbook
open Text

/-- How a route is handled. -/
inductive ApiKind where
  /-- A function, grouped by its module. -/
  | api
  /-- A method of a resource class, grouped by the class. -/
  | restfulApi
  deriving DecidableEq, Repr

def ApiKind.name : ApiKind → String
  | .api => "api"
  | .restfulApi => "restful_api"

/-- A route with its place in the documentation. -/
structure ClassifiedRoute where
  kind : ApiKind
  /-- The group: a capitalized module name or a resource class. -/
  group : String
  /-- The docstring of the resource class. -/
  groupDoc : Option String
  /-- The entry inside the group. -/
  name : String
  url : String
  /-- The shown methods in display order. -/
  methods : List String
  handler : Option Handler
  deriving DecidableEq, Repr

namespace Route

/-- The part of a text before the first character satisfying `p`, and all of it when there is none. -/
def upTo (p : Char → Bool) (s : List Char) : List Char := s.takeWhile fun c => !p c

/-- The module that owns a plain route: the first segment of a dotted endpoint, or else of the URL. -/
def moduleName (r : Route) : String :=
  if r.endpoint.toList.contains '.' then mapped (upTo (· == '.')) r.endpoint
  else mapped (fun s => upTo (· == '/') (s.dropWhile (· == '/'))) r.rule

/-- The function's name, from the endpoint when no handler is known. -/
def functionName (r : Route) (handler : Option Handler) : String :=
  match handler with
  | some h => h.name
  | none => mapped (fun s => (upTo (· == '.') s.reverse).reverse) r.endpoint

/-- The entries of a route that a resource dispatches. -/
def classifyResource (settings : Settings) (r : Route) (resource : Resource) : List ClassifiedRoute :=
  if settings.restfulExclude.any fun name => name == resource.name || name == r.endpoint then []
  else (settings.allowedMethods r.methods).map fun method =>
    { kind := .restfulApi
      group := resource.name
      groupDoc := resource.doc
      name := method
      url := r.rule
      methods := [method]
      handler := resource.handler method }

/-- The entry of a route that a function handles. -/
def classifyFunction (settings : Settings) (r : Route) (handler : Option Handler) : List ClassifiedRoute :=
  let name := r.functionName handler
  let methods := settings.allowedMethods r.methods
  if !settings.member.contains r.moduleName then []
  else if settings.memberSubExclude.any fun hidden => hidden == name || hidden == r.endpoint then []
  else if methods.isEmpty then []
  else
    [{ kind := .api
       group := mapped capitalize r.moduleName
       groupDoc := none
       name := mapped humanize name
       url := r.rule
       methods := methods
       handler := handler }]

/-- The entries of one route; a class that is not registered has none. -/
def classify (settings : Settings) (source : RouteSource) (r : Route) : List ClassifiedRoute :=
  let handler := source.handler r.endpoint
  match handler.bind Handler.viewClass with
  | some viewClass =>
    match source.resource viewClass with
    | some resource => r.classifyResource settings resource
    | none => []
  | none => r.classifyFunction settings handler

end Route

/-- The entries of all routes, in route order. -/
def RouteSource.classify (source : RouteSource) (settings : Settings) : List ClassifiedRoute :=
  source.routes.flatMap fun r => r.classify settings source

end ApiHandbook
