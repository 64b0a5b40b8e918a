import ApiHandbook.Entries
import ApiHandbook.Project.Source

/-! Routes of Axum projects: `Router::route` with chains such as `get(list).post(create)`, and `Router::nest` with a
router built in place or by another function. -/
namespace ApiHandbook.Project.Axum
open Code

/-- Where the router that a function builds is nested. -/
structure Mount where
  /-- The function in which the nesting stands. -/
  parent : Option String
  path : String
  deriving DecidableEq, Repr

/-- What is known while nestings are looked for. -/
structure Place where
  function : Option String := none
  /-- The path of the nestings around, within the function. -/
  path : String := ""

/-- The name of the function that a call names. -/
def calledFunction? : Expr → Option String
  | .call (.path _ p _) _ => p.last?
  | _ => none

/-- The path and the router of a call of `nest`. -/
def nesting? (method : String) (arguments : List Expr) : Option (String × Expr) :=
  match arguments with
  | path :: router :: _ => if method = "nest" then (textOf? path).map (·, router) else none
  | _ => none

/-- The nestings of routers that functions build. -/
def nestings : Survey Place (String × Mount) :=
  { function := fun place h => ([], { place with function := some h.name })
    call := fun place _ method arguments =>
      match nesting? method arguments with
      | some (path, router) =>
        let path := joinRules place.path path
        { found := ((calledFunction? router).map fun builder => (builder, ⟨place.function, path⟩)).toList
          inside := { place with path }
          only := some 1 }
      | none => { inside := place } }

/-- The mounts of router-building functions; the last mount of a function counts. -/
abbrev Mounts := List (String × Mount)

def Mounts.ofFiles (files : List SourceFile) : Mounts :=
  (files.flatMap fun f => nestings.items {} f.items).foldl (fun mounts (builder, mount) => put builder mount mounts) []

/-- The paths of the nestings that lead to a function, from the innermost outwards, as many as allowed. -/
def Mounts.chain (mounts : Mounts) : Nat → String → List String
  | 0, _ => []
  | allowed + 1, function =>
    match mounts.lookup function with
    | none => []
    | some mount =>
      mount.path ::
        match mount.parent with
        | none => []
        | some parent => chain mounts allowed parent

/-- The path under which the router that a function builds is mounted. A chain longer than there are mounts is a cycle,
and is cut. -/
def Mounts.mountPath (mounts : Mounts) (function : String) : String :=
  (mounts.chain (mounts.length + 1) function).reverse.foldl joinRules ""

/-- The function that a handler argument names, seen through references. -/
def handlerName? : Expr → Option FunctionName
  | .path _ p _ => FunctionName.ofPath? p
  | .reference inner => handlerName? inner
  | _ => none

/-- The verb and handler that a routing function or method binds. -/
def binding? (function : String) (arguments : List Expr) : Option (String × FunctionName) := do
  let verb ← verb? function
  let handler ← arguments.head?.bind handlerName?
  return (verb, handler)

/-- The verbs and handlers of a chain such as `get(a).post(b)`. -/
def methodRouter : Expr → List (String × FunctionName)
  | .methodCall receiver method arguments => methodRouter receiver ++ (binding? method arguments).toList
  | .call (.path _ p _) arguments => (p.last?.bind fun function => binding? function arguments).toList
  | .parenthesized inner => methodRouter inner
  | _ => []

/-- Adds a verb to those of its handler. -/
def addVerb (handler : FunctionName) (verb : String) :
    List (FunctionName × List String) → List (FunctionName × List String)
  | [] => [(handler, [verb])]
  | (h, verbs) :: rest => if h = handler then (h, verbs ++ [verb]) :: rest else (h, verbs) :: addVerb handler verb rest

/-- The handlers of a chain, each with all its verbs. -/
def byHandler (bindings : List (String × FunctionName)) : List (FunctionName × List String) :=
  bindings.foldl (fun groups (verb, handler) => addVerb handler verb groups) []

/-- The routes of a call of `route` under a path: one for each handler. -/
def routesOfCall (module : Option String) (mount : String) (arguments : List Expr) : List FoundRoute :=
  match arguments with
  | path :: router :: _ =>
    match textOf? path with
    | some path =>
      (byHandler (methodRouter router)).map fun (handler, verbs) =>
        ⟨joinRules mount path, verbs, .function handler.name, handler.module <|> module⟩
    | none => []
  | _ => []

/-- The routes in a file, given the path under which the routers around are mounted. -/
def registrations (mounts : Mounts) (module : Option String) : Survey String FoundRoute :=
  { function := fun _ h => ([], mounts.mountPath h.name)
    call := fun mount _ method arguments =>
      match nesting? method arguments with
      | some (path, _) => { inside := joinRules mount path, only := some 1 }
      | none => { found := if method = "route" then routesOfCall module mount arguments else [], inside := mount } }

/-- The routes of a project. -/
def routes (files : List SourceFile) : List FoundRoute :=
  let mounts := Mounts.ofFiles files
  files.flatMap fun f => (registrations mounts f.module).items "" f.items

end ApiHandbook.Project.Axum
