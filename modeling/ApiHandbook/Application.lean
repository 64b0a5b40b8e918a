import ApiHandbook.Argument.Record
import ApiHandbook.Docstring
import ApiHandbook.Entries
import ApiHandbook.Text.Case

/-! The routes of an application, the functions that handle them, and the resources that dispatch by method, as
registration calls leave them. -/
namespace ApiHandbook

/-- A URL rule bound to an endpoint. -/
structure Route where
  rule : String
  /-- The accepted methods, in capitals. -/
  methods : List String
  /-- `module.function`, a bare function name, or a resource's endpoint. -/
  endpoint : String
  deriving DecidableEq, Repr

/-- A function that handles requests, with what is known about it. -/
structure Handler where
  name : String
  doc : Option String := none
  /-- The text of the function, in which argument declarations may stand. -/
  source : Option String := none
  /-- Structured argument declarations. -/
  arguments : Option (List Argument.Record) := none
  /-- The resource class that dispatches the endpoint. -/
  viewClass : Option String := none
  deriving DecidableEq, Repr

namespace Handler

/-- Substitutes shared texts into the docstring, if there is one. -/
def changeDoc (h : Handler) (replacements : List (String × String)) : Handler :=
  { h with doc := h.doc.map (Docstring.fillIn replacements) }

/-- The docstring, when it is not blank. -/
def docstring (h : Handler) : Option String :=
  h.doc.filter fun doc => !Text.isBlankText doc.toList

/-- The records of the structured declarations. -/
def declaredRecords (h : Handler) : Option (List Argument.Record) :=
  h.arguments.map fun records => records.map Argument.Record.withBareDefaults

end Handler

/-- A class that dispatches requests to one handler for each method. -/
structure Resource where
  name : String
  doc : Option String := none
  /-- The bound verbs, in capitals, with their handlers. -/
  bindings : List (String × Handler) := []
  deriving DecidableEq, Repr

def upperMethod (method : String) : String := Text.mapped Text.asciiUpper method

namespace Resource

/-- Binds a handler to a verb; the last binding of a verb wins. -/
def method (r : Resource) (verb : String) (handler : Handler) : Resource :=
  { r with bindings := put (upperMethod verb) handler r.bindings }

def handler (r : Resource) (method : String) : Option Handler :=
  (r.bindings.find? fun binding => Text.sameIgnoringCase binding.1.toList method.toList).map Prod.snd

/-- The bound verbs in binding order. -/
def methods (r : Resource) : List String := r.bindings.map Prod.fst

/-- The endpoint of the resource's routes. -/
def endpoint (r : Resource) : String := Text.mapped Text.lowerCase r.name

end Resource

/-- What the documentation reads of an application. -/
structure RouteSource where
  /-- The routes in registration order. -/
  routes : List Route
  handler : String → Option Handler
  resource : String → Option Resource

/-- The state that registration calls leave. -/
structure Application where
  routes : List Route := []
  /-- The handler of each endpoint. -/
  handlers : List (String × Handler) := []
  /-- The resource of each name. -/
  resources : List (String × Resource) := []
  deriving DecidableEq, Repr

/-- A registration call. -/
inductive Registration where
  /-- The endpoint is the handler's name. -/
  | route (rule : String) (methods : List String) (handler : Handler)
  | routeWithEndpoint (rule : String) (methods : List String) (endpoint : String) (handler : Handler)
  /-- A route of a group that shares a module name and a URL prefix. -/
  | blueprintRoute (module urlPrefix rule : String) (methods : List String) (handler : Handler)
  | addResource (resource : Resource) (urls : List String)
  deriving DecidableEq, Repr

namespace Application

def handler (app : Application) (endpoint : String) : Option Handler := app.handlers.lookup endpoint

def resource (app : Application) (name : String) : Option Resource := app.resources.lookup name

def source (app : Application) : RouteSource := ⟨app.routes, app.handler, app.resource⟩

/-- Adds a route; the first handler given for an endpoint is kept. -/
def addRoute (app : Application) (rule : String) (methods : List String) (endpoint : String) (handler : Handler) :
    Application :=
  { app with
    routes := app.routes ++ [⟨rule, methods.map upperMethod, endpoint⟩]
    handlers := insertNew endpoint handler app.handlers }

/-- The handler that dispatches to a resource. -/
def dispatcher (resource : Resource) : Handler :=
  { name := resource.endpoint, viewClass := some resource.name }

/-- The rule of a route inside a group: the group's prefix loses its trailing slashes. -/
def blueprintRule (urlPrefix rule : String) : String :=
  Text.mapped (Text.dropEndWhile (· == '/')) urlPrefix ++ rule

def register (app : Application) : Registration → Application
  | .route rule methods handler => app.addRoute rule methods handler.name handler
  | .routeWithEndpoint rule methods endpoint handler => app.addRoute rule methods endpoint handler
  | .blueprintRoute module urlPrefix rule methods handler =>
    app.addRoute (blueprintRule urlPrefix rule) methods (module ++ "." ++ handler.name) handler
  | .addResource resource urls =>
    { routes := app.routes ++ urls.map fun url => ⟨url, resource.methods.map upperMethod, resource.endpoint⟩
      handlers := insertNew resource.endpoint (dispatcher resource) app.handlers
      resources := insertNew resource.name resource app.resources }

/-- The application after a sequence of registration calls. -/
def ofRegistrations (calls : List Registration) : Application := calls.foldl register {}

end Application
end ApiHandbook
