import ApiHandbook.Application
import ApiHandbook.Project.Source

/-! The functions, documented types and resources that a project defines. -/
namespace ApiHandbook.Project
open Code

/-- A definition that registrations can refer to. -/
inductive Definition where
  | function (module : Option String) (handler : Handler)
  | structDoc (name doc : String)
  /-- A resource with the handlers of its verbs. -/
  | resource (name : String) (bindings : List (String × Handler))
  deriving DecidableEq, Repr

/-- The definitions of a project, in the order of its files. -/
abbrev Index := List Definition

/-- The handler that a function or method is, with the lines that it stands on. -/
def handlerOf (f : SourceFile) (h : Heading) : Handler :=
  { name := h.name, doc := docComment? h.attributes, source := some (f.lines h.first h.last) }

/-- The traits whose implementations dispatch by verb. -/
def resourceTraits : List String := ["Resource", "MethodView"]

/-- The methods that are named after a verb. -/
def boundMethods (f : SourceFile) (members : List Item) : List (String × Handler) :=
  members.filterMap fun m =>
    match m with
    | .method h _ => (verb? h.name).map fun verb => (verb, handlerOf f h)
    | _ => none

/-- The definitions in a file. Functions belong to the file's module; in the root of a crate, to the outermost module
inside the file. -/
def definitions (f : SourceFile) : Survey (Option String) Definition :=
  { function := fun module h => ([.function module (handlerOf f h)], module)
    struct := fun _ h => ((docComment? h.attributes).map (Definition.structDoc h.name)).toList
    implementation := fun _ traitName selfName members =>
      match traitName, selfName with
      | some traitName, some selfName =>
        if resourceTraits.contains traitName then some [.resource selfName (boundMethods f members)] else none
      | _, _ => none
    module := fun module name inline => if module.isNone && inline then some name else module }

namespace Index

def ofFiles (files : List SourceFile) : Index :=
  files.flatMap fun f => (definitions f).items f.module f.items

/-- The functions of a name with their modules. -/
def functions (index : Index) (name : String) : List (Option String × Handler) :=
  index.filterMap fun d =>
    match d with
    | .function module handler => if handler.name = name then some (module, handler) else none
    | _ => none

/-- The function of a name, that of the given module if there is one. -/
def function? (index : Index) (module : Option String) (name : String) : Option (Option String × Handler) :=
  let candidates := index.functions name
  (candidates.find? fun c => c.1 = module) <|> candidates.head?

/-- The last documentation of a type of this name. -/
def structDoc? (index : Index) (name : String) : Option String :=
  (index.filterMap fun d =>
    match d with
    | .structDoc n doc => if n = name then some doc else none
    | _ => none).getLast?

/-- The handlers that the last implementation for a type of this name binds. -/
def bindings? (index : Index) (name : String) : Option (List (String × Handler)) :=
  (index.filterMap fun d =>
    match d with
    | .resource n bindings => if n = name then some bindings else none
    | _ => none).getLast?

/-- The resource of a name. -/
def resource? (index : Index) (name : String) : Option Resource :=
  (index.bindings? name).map fun bindings =>
    bindings.foldl (fun r (verb, handler) => r.method verb handler) { name, doc := index.structDoc? name }

end Index
end ApiHandbook.Project
