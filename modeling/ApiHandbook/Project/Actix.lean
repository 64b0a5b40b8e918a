import ApiHandbook.Entries
import ApiHandbook.Project.Source

/-! Routes of Actix projects: attributes such as `#[get("/p")]` on handlers, which `service` mounts inside scopes, and
calls such as `.route("/p", web::get().to(handler))`. -/
namespace ApiHandbook.Project.Actix
open Code

/-- What is found in a file. -/
inductive Finding where
  /-- A route declared by an attribute of the named handler. -/
  | declared (handler : String) (route : FoundRoute)
  | called (route : FoundRoute)
  /-- A handler mounted inside a scope. -/
  | service (handler scope : String)
  deriving DecidableEq, Repr

/-- The text of the first argument of the call `name(…)` at the root of a chain of method calls. -/
def rootArgument? (name : String) : Expr → Option String
  | .methodCall receiver _ _ => rootArgument? name receiver
  | .call (.path _ p _) arguments => if p.last? = some name then arguments.head?.bind textOf? else none
  | _ => none

/-- The verb and handler of `web::get().to(handler)`. -/
def routeTarget? : Expr → Option (String × FunctionName)
  | .methodCall (.call (.path _ function _) _) method (.path _ handler _ :: _) =>
    if method = "to" then do
      let verb ← function.last?.bind verb?
      let handler ← FunctionName.ofPath? handler
      return (verb, handler)
    else none
  | _ => none

/-- The verbs named by the arguments of `#[route]`. -/
def namedVerbs (arguments : List Expr) : List String :=
  arguments.filterMap fun a =>
    match a with
    | .assignment (.path _ p _) value =>
      if p.word? = some "method" then (textOf? value).map (Text.mapped Text.asciiUpper) else none
    | _ => none

/-- The verbs and the path that an attribute declares. -/
def declaration? (a : Attribute) : Option (List String × String) := do
  let name ← a.path.last?
  let single := verb? name
  if single.isNone ∧ name ≠ "route" then none
  let arguments ← a.arguments?
  let path ← arguments.head?.bind textOf?
  match single with
  | some verb => return ([verb], path)
  | none => return (namedVerbs (arguments.drop 1), path)

/-- The scope inside a method call: the scope around it with that at the root of its receiver. -/
def scopeInside (scope : String) (receiver : Expr) : String :=
  match rootArgument? "scope" receiver with
  | some inner => joinRules scope inner
  | none => scope

/-- The route of a call of `route`: its path is the first of two arguments, or that of the resource it is called on. -/
def routeOfCall? (module : Option String) (scope : String) (receiver : Expr) (arguments : List Expr) :
    Option FoundRoute := do
  let (path, route) ←
    match arguments with
    | [path, route] => (textOf? path).map (·, route)
    | [route] => (rootArgument? "resource" receiver).map (·, route)
    | _ => none
  let (verb, handler) ← routeTarget? route
  let mount := joinRules scope ((rootArgument? "scope" receiver).getD "")
  return ⟨joinRules mount path, [verb], .function handler.name, handler.module <|> module⟩

/-- The handler that a call of `service` mounts. -/
def mountedHandler? (arguments : List Expr) : Option String :=
  match arguments with
  | .path _ p _ :: _ => p.last?
  | _ => none

/-- The findings of a method call inside a scope. -/
def findingsOfCall (module : Option String) (scope : String) (receiver : Expr) (method : String)
    (arguments : List Expr) : List Finding :=
  if method = "route" then ((routeOfCall? module scope receiver arguments).map .called).toList
  else if method = "service" then
    let scope := scopeInside scope receiver
    match mountedHandler? arguments with
    | some handler => if scope.isEmpty then [] else [.service handler scope]
    | none => []
  else []

/-- The findings in a file, given the scope around. -/
def findings (module : Option String) : Survey String Finding :=
  { function := fun scope h =>
      let declared := (h.attributes.filterMap declaration?).map fun (verbs, path) =>
        Finding.declared h.name ⟨path, verbs, .function h.name, module⟩
      (declared, scope)
    call := fun scope receiver method arguments =>
      { found := findingsOfCall module scope receiver method arguments
        inside := scopeInside scope receiver } }

/-- The scopes of mounted handlers; the last mount of a handler counts. -/
def scopes (found : List Finding) : List (String × String) :=
  found.foldl (fun scopes f =>
    match f with
    | .service handler scope => put handler scope scopes
    | _ => scopes) []

/-- The route of a finding, under the scope of its handler if an attribute declares it. -/
def routeOf? (scopes : List (String × String)) : Finding → Option FoundRoute
  | .declared handler route =>
    match scopes.lookup handler with
    | some scope => some { route with path := joinRules scope route.path }
    | none => some route
  | .called route => some route
  | .service _ _ => none

/-- The routes of a project. -/
def routes (files : List SourceFile) : List FoundRoute :=
  let found := files.flatMap fun f => (findings f.module).items "" f.items
  found.filterMap (routeOf? (scopes found))

end ApiHandbook.Project.Actix
